import Mathlib.Data.Nat.Notation
import Mathlib.Data.Int.Notation
import Mathlib.Tactic.SplitIfs
import Mathlib.Algebra.Order.Group.Int
import Mathlib.Algebra.Order.Ring.Int

/-!
# Integer arithmetic without loss

A computation in `Exact` is made of steps on machine integers, and a step that loses something is an
error: an operation whose result leaves the type, or a cast whose value does not fit it.  So a
computation that returns has met neither.  The division of the machine rounds to zero; `floorDiv`
and `clampedDiv` are the two ways a calendar corrects it.
-/

namespace MachineInt

/-- The value that a step would have lost. -/
structure Loss where
  value : ℤ
  deriving DecidableEq, Repr

abbrev Exact := Except Loss

/-- A signed integer of the given width. -/
def signed (bits : ℕ) (x : ℤ) : Exact ℤ :=
  if -2 ^ (bits - 1) ≤ x ∧ x < 2 ^ (bits - 1) then .ok x else .error ⟨x⟩

theorem ok_bind {α β : Type} (a : α) (f : α → Exact β) : (Except.ok a >>= f) = f a := rfl

def i8 : ℤ → Exact ℤ := signed 8

def i64 : ℤ → Exact ℤ := signed 64

def u8 (x : ℤ) : Exact UInt8 :=
  if 0 ≤ x ∧ x < 2 ^ 8 then .ok (UInt8.ofNat x.toNat) else .error ⟨x⟩

def u32 (x : ℤ) : Exact UInt32 :=
  if 0 ≤ x ∧ x < 2 ^ 32 then .ok (UInt32.ofNat x.toNat) else .error ⟨x⟩

def usize (x : ℤ) : Exact ℕ :=
  if 0 ≤ x ∧ x < 2 ^ 64 then .ok x.toNat else .error ⟨x⟩

theorem i8_ok {x : ℤ} (h : -128 ≤ x) (h' : x < 128) : i8 x = .ok x := if_pos ⟨h, h'⟩

theorem i64_ok {x : ℤ} (h : -9223372036854775808 ≤ x) (h' : x < 9223372036854775808) :
    i64 x = .ok x := if_pos ⟨h, h'⟩

theorem u8_ok {x : ℤ} (h : 0 ≤ x) (h' : x < 256) :
    ∃ v : UInt8, u8 x = .ok v ∧ (v.toNat : ℤ) = x := by
  refine ⟨_, if_pos ⟨h, h'⟩, ?_⟩
  rw [UInt8.toNat_ofNat']
  omega

theorem u32_ok {x : ℤ} (h : 0 ≤ x) (h' : x < 4294967296) :
    ∃ v : UInt32, u32 x = .ok v ∧ (v.toNat : ℤ) = x := by
  refine ⟨_, if_pos ⟨h, h'⟩, ?_⟩
  rw [UInt32.toNat_ofNat']
  omega

theorem usize_ok {x : ℤ} (h : 0 ≤ x) (h' : x < 18446744073709551616) : usize x = .ok x.toNat :=
  if_pos ⟨h, h'⟩

/-- The quotient and the remainder, the remainder made nonnegative. -/
def floorDiv (a b : ℤ) : Exact (ℤ × ℤ) := do
  let q ← i64 (a.tdiv b)
  let r ← i64 (a.tmod b)
  if r < 0 then
    let r ← i64 (r + b)
    let q ← i64 (q - 1)
    return (q, r)
  return (q, r)

def clamp (q last : ℤ) : Exact ℤ := if q = last then i64 (q - 1) else .ok q

/-- The quotient, one less if it is `last`, and what it leaves. -/
def clampedDiv (a b last : ℤ) : Exact (ℤ × ℤ) := do
  let q ← i64 (a.tdiv b)
  let q ← clamp q last
  let qb ← i64 (q * b)
  let r ← i64 (a - qb)
  return (q, r)

theorem floorDiv_eq {a b : ℤ} (hb : 0 < b) (hb' : b < 9223372036854775808)
    (ha : -9223372036854775808 < a) (ha' : a < 9223372036854775808) :
    floorDiv a b = .ok (a / b, a % b) := by
  have hdiv := Int.mul_tdiv_add_tmod a b
  have hlt := Int.tmod_lt_of_pos a hb
  have hgt := Int.lt_tmod_of_pos a hb
  have hq := Int.natAbs_tdiv_le_natAbs a b
  unfold floorDiv
  rw [i64_ok (by omega) (by omega), i64_ok (by omega) (by omega), ok_bind, ok_bind]
  split_ifs with hneg
  · rw [i64_ok (by omega) (by omega), i64_ok (by omega) (by omega), ok_bind, ok_bind]
    have hmul : b * (a.tdiv b - 1) = b * a.tdiv b - b := by rw [Int.mul_sub, Int.mul_one]
    obtain ⟨hdiv, hmod⟩ := (@Int.ediv_emod_unique a b (a.tmod b + b) (a.tdiv b - 1) hb).2
      ⟨by omega, by omega, by omega⟩
    rw [hdiv, hmod]
    rfl
  · obtain ⟨hdiv, hmod⟩ := (@Int.ediv_emod_unique a b (a.tmod b) (a.tdiv b) hb).2
      ⟨by omega, by omega, by omega⟩
    rw [hdiv, hmod]
    rfl

/-- A multiple of the divisor by `last` leaves a whole divisor. -/
theorem clampedDiv_ok {a b last : ℤ} (hb : 0 < b) (ha : 0 ≤ a) (ha' : a < 9223372036854775808)
    (hlast : 0 < last) (hle : a ≤ last * b) :
    ∃ q r, clampedDiv a b last = .ok (q, r) ∧ a = q * b + r ∧ 0 ≤ q ∧ q < last ∧ 0 ≤ r ∧
      (r < b ∨ (r = b ∧ q + 1 = last)) := by
  have hdiv := Int.mul_ediv_add_emod a b
  have hcomm := Int.mul_comm b (a / b)
  have hmod := Int.emod_nonneg a hb.ne'
  have hlt := Int.emod_lt_of_pos a hb
  have hq := Int.ediv_nonneg ha hb.le
  have hqa := Int.ediv_le_self b ha
  have hql : a / b ≤ last := Int.ediv_le_of_le_mul hb hle
  unfold clampedDiv clamp
  rw [Int.tdiv_eq_ediv_of_nonneg ha, i64_ok (by omega) (by omega), ok_bind]
  split_ifs with hclamp
  · have hmul : (a / b - 1) * b = a / b * b - b := by rw [Int.sub_mul, Int.one_mul]
    have hpos : 0 ≤ (a / b - 1) * b := Int.mul_nonneg (by omega) hb.le
    rw [i64_ok (by omega) (by omega), ok_bind, i64_ok (by omega) (by omega), ok_bind,
      i64_ok (by omega) (by omega), ok_bind]
    refine ⟨_, _, rfl, by omega, by omega, by omega, by omega, .inr ⟨?_, by omega⟩⟩
    rw [hclamp] at hdiv hcomm hmul ⊢
    omega
  · have hpos : 0 ≤ a / b * b := Int.mul_nonneg hq hb.le
    rw [ok_bind, i64_ok (by omega) (by omega), ok_bind, i64_ok (by omega) (by omega), ok_bind]
    exact ⟨_, _, rfl, by omega, hq, by omega, by omega, .inl (by omega)⟩

end MachineInt
