import Mathlib.Tactic.Ring
import Mathlib.Tactic.Positivity
import Mathlib.Data.List.Basic

/-!
# Numbers as big-endian bytes

`bigEndian n v` is `v` in `n` bytes, most significant first, and `fromBigEndian` reads bytes back.
An octet's two top bits, the mask every length octet of a compressed format is tested with, are read
off its value (`and_top_eq_zero`, `and_top_eq_top`).
-/

namespace Bytes

/-- The `n` low bytes of `v`, most significant first. -/
def bigEndian : ℕ → ℕ → List UInt8
  | 0, _ => []
  | n + 1, v => UInt8.ofNat (v / 256 ^ n) :: bigEndian n v

/-- The number that bytes spell, most significant first. -/
def fromBigEndian : List UInt8 → ℕ
  | [] => 0
  | b :: bs => b.toNat * 256 ^ bs.length + fromBigEndian bs

@[simp] theorem length_bigEndian (n v : ℕ) : (bigEndian n v).length = n := by
  induction n with
  | zero => rfl
  | succ n ih => simp [bigEndian, ih]

theorem fromBigEndian_bigEndian (n v : ℕ) : fromBigEndian (bigEndian n v) = v % 256 ^ n := by
  induction n with
  | zero => simp [bigEndian, fromBigEndian, Nat.mod_one]
  | succ n ih =>
    have hb : (UInt8.ofNat (v / 256 ^ n)).toNat = v / 256 ^ n % 256 := by simp
    simp only [bigEndian, fromBigEndian, length_bigEndian, ih, hb]
    rw [Nat.pow_succ, Nat.mod_mul, Nat.mul_comm (256 ^ n), Nat.add_comm]

theorem fromBigEndian_bigEndian_of_lt {n v : ℕ} (h : v < 256 ^ n) :
    fromBigEndian (bigEndian n v) = v := by
  rw [fromBigEndian_bigEndian, Nat.mod_eq_of_lt h]

theorem fromBigEndian_lt (bs : List UInt8) : fromBigEndian bs < 256 ^ bs.length := by
  induction bs with
  | nil => simp [fromBigEndian]
  | cons b bs ih =>
    have hb : b.toNat < 256 := b.toNat_lt
    simp only [fromBigEndian, List.length_cons, Nat.pow_succ]
    calc b.toNat * 256 ^ bs.length + fromBigEndian bs
        < b.toNat * 256 ^ bs.length + 256 ^ bs.length := by omega
      _ = (b.toNat + 1) * 256 ^ bs.length := by ring
      _ ≤ 256 * 256 ^ bs.length := Nat.mul_le_mul_right _ (by omega)
      _ = 256 ^ bs.length * 256 := Nat.mul_comm _ _

theorem bigEndian_add_mul (n v k : ℕ) : bigEndian n (k * 256 ^ n + v) = bigEndian n v := by
  induction n generalizing k with
  | zero => rfl
  | succ n ih =>
    have h1 : k * 256 ^ (n + 1) + v = k * 256 * 256 ^ n + v := by ring
    have h2 : (k * 256 * 256 ^ n + v) / 256 ^ n = v / 256 ^ n + 256 * k := by
      rw [Nat.add_comm, Nat.add_mul_div_right _ _ (by positivity), Nat.mul_comm k]
    simp only [bigEndian, h1, ih, h2, List.cons.injEq, and_true]
    rw [← UInt8.toNat_inj]
    simp

theorem bigEndian_mod (n v : ℕ) : bigEndian n (v % 256 ^ n) = bigEndian n v := by
  have h : v = v / 256 ^ n * 256 ^ n + v % 256 ^ n := (Nat.div_add_mod' v (256 ^ n)).symm
  rw [h, bigEndian_add_mul, ← h]

theorem bigEndian_inj {n v w : ℕ} (hv : v < 256 ^ n) (hw : w < 256 ^ n)
    (h : bigEndian n v = bigEndian n w) : v = w := by
  have hv' := fromBigEndian_bigEndian_of_lt hv
  have hw' := fromBigEndian_bigEndian_of_lt hw
  rw [← hv', h, hw']

theorem bigEndian_fromBigEndian (bs : List UInt8) :
    bigEndian bs.length (fromBigEndian bs) = bs := by
  induction bs with
  | nil => rfl
  | cons b bs ih =>
    have hd : (b.toNat * 256 ^ bs.length + fromBigEndian bs) / 256 ^ bs.length = b.toNat := by
      rw [Nat.add_comm, Nat.add_mul_div_right _ _ (by positivity),
        Nat.div_eq_of_lt (fromBigEndian_lt bs), Nat.zero_add]
    simp [bigEndian, fromBigEndian, hd, bigEndian_add_mul, ih]

theorem fromBigEndian_pair (a b : UInt8) : fromBigEndian [a, b] = a.toNat * 256 + b.toNat := by
  simp [fromBigEndian]

theorem and_top_eq_zero (b : UInt8) : b &&& 0b11000000 = 0 ↔ b.toNat < 64 := by
  have h : ∀ n < 256, UInt8.ofNat n &&& 0b11000000 = 0 ↔ n < 64 := by decide +kernel
  simpa using h b.toNat b.toNat_lt

theorem and_top_eq_top (b : UInt8) : b &&& 0b11000000 = 0b11000000 ↔ 192 ≤ b.toNat := by
  have h : ∀ n < 256, UInt8.ofNat n &&& 0b11000000 = 0b11000000 ↔ 192 ≤ n := by decide +kernel
  simpa using h b.toNat b.toNat_lt

end Bytes
