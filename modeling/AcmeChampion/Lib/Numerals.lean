import AcmeChampion.Lib.Lines
import Mathlib.Data.String.Basic

/-!
# Numerals that sort

Numerals of one width sort as their numbers do (`digits_lt_iff`), and texts of several such fields
as the fields do, from the first that differs on (`layout_lt_iff`).
-/

namespace Numerals

open Lines

/-! ## One field -/

/-- The last `width` decimal digits. -/
def digits : ℕ → ℕ → List Char
  | 0, _ => []
  | width + 1, n => digits width (n / 10) ++ [(n % 10).digitChar]

@[simp] theorem length_digits : ∀ width n : ℕ, (digits width n).length = width
  | 0, _ => rfl
  | width + 1, n => by rw [digits, List.length_append, length_digits, List.length_singleton]

theorem replicate_append_toDigits : ∀ (width : ℕ) {n : ℕ}, n < 10 ^ (width + 1) →
    List.replicate (width + 1 - (Nat.toDigits 10 n).length) '0' ++ Nat.toDigits 10 n =
      digits (width + 1) n
  | 0, n, h => by
    have hlt : n < 10 := h
    rw [Nat.toDigits_of_lt_base hlt, digits, digits, Nat.mod_eq_of_lt hlt]
    rfl
  | width + 1, n, h => by
    rw [digits, Nat.toDigits_eq_if (by decide)]
    split_ifs with hlt
    · have hzero := @replicate_append_toDigits width 0 (Nat.pow_pos (by decide))
      rw [Nat.toDigits_zero, List.length_singleton, Nat.add_sub_cancel] at hzero
      rw [Nat.div_eq_of_lt hlt, Nat.mod_eq_of_lt hlt, List.length_singleton, Nat.add_sub_cancel,
        ← hzero, List.replicate_succ']
    · have hdiv := @replicate_append_toDigits width (n / 10) (by omega)
      rw [List.length_append, List.length_singleton, Nat.add_sub_add_right, ← List.append_assoc,
        hdiv]

theorem toList_zeroPadded {width n : ℕ} (hwidth : 0 < width) (h : n < 10 ^ width) :
    (zeroPadded width n).toList = digits width n := by
  obtain ⟨k, rfl⟩ := Nat.exists_eq_add_of_le' hwidth
  have hsign : ¬ (n : ℤ) < 0 := by omega
  have hlen : n.repr.length = (Nat.toDigits 10 n).length := by
    rw [← String.length_toList, Nat.toList_repr]
  unfold zeroPadded
  simp only [if_neg hsign, Int.natAbs_natCast, String.toList_append, String.toList_ofList, hlen,
    Nat.toList_repr]
  exact replicate_append_toDigits k h

/-- Lists that begin with as many elements are ordered by these first. -/
theorem append_lt_append_iff {α : Type*} [LinearOrder α] : ∀ {as bs xs ys : List α},
    as.length = bs.length → (as ++ xs < bs ++ ys ↔ as < bs ∨ as = bs ∧ xs < ys)
  | [], [], xs, ys, _ => by simp
  | a :: as, b :: bs, xs, ys, h => by
    have ih := @append_lt_append_iff α _ as bs xs ys (Nat.succ.inj h)
    rw [List.cons_append, List.cons_append, List.cons_lt_cons_iff, List.cons_lt_cons_iff, ih,
      List.cons.injEq]
    tauto

theorem digitChar_inj : ∀ m < 10, ∀ n < 10, Nat.digitChar m = Nat.digitChar n → m = n := by
  decide

theorem digits_inj : ∀ (width : ℕ) {m n : ℕ}, m < 10 ^ width → n < 10 ^ width →
    (digits width m = digits width n ↔ m = n)
  | 0, m, n, hm, hn => by
    rw [Nat.pow_zero] at hm hn
    exact iff_of_true rfl (by omega)
  | width + 1, m, n, hm, hn => by
    refine ⟨fun h => ?_, fun h => by rw [h]⟩
    obtain ⟨hinit, hlast⟩ := List.append_inj h (by simp)
    have hdiv := (digits_inj width (by omega) (by omega)).1 hinit
    have hmod := digitChar_inj (m % 10) (by omega) (n % 10) (by omega) (List.cons.inj hlast).1
    omega

theorem digitChar_lt_iff : ∀ m < 10, ∀ n < 10, (Nat.digitChar m < Nat.digitChar n ↔ m < n) := by
  decide

theorem digits_lt_iff : ∀ (width : ℕ) {m n : ℕ}, m < 10 ^ width → n < 10 ^ width →
    (digits width m < digits width n ↔ m < n)
  | 0, m, n, hm, hn => by
    simp only [digits, Nat.pow_zero] at *
    exact iff_of_false (List.not_lt_nil _) (by omega)
  | width + 1, m, n, hm, hn => by
    have hlast := digitChar_lt_iff (m % 10) (by omega) (n % 10) (by omega)
    have hlt := @digits_lt_iff width (m / 10) (n / 10) (by omega) (by omega)
    have heq := @digits_inj width (m / 10) (n / 10) (by omega) (by omega)
    have hsingle : [(m % 10).digitChar] < [(n % 10).digitChar] ↔ m % 10 < n % 10 := by
      rw [List.cons_lt_cons_iff, hlast]
      simp
    rw [digits, digits, append_lt_append_iff (by simp), hlt, heq, hsingle]
    omega

/-! ## Several fields -/

/-- Fields of given widths, each with a character behind it. -/
def layout : List (ℕ × Char) → List ℕ → List Char
  | (width, c) :: fields, n :: ns => digits width n ++ c :: layout fields ns
  | _, _ => []

/-- Each number has a place in its field. -/
def Fits : List (ℕ × Char) → List ℕ → Prop :=
  List.Forall₂ fun field n => n < 10 ^ field.1

theorem length_layout {fields : List (ℕ × Char)} {ms ns : List ℕ} (hm : Fits fields ms)
    (hn : Fits fields ns) : (layout fields ms).length = (layout fields ns).length := by
  induction hm generalizing ns with
  | nil =>
    cases hn
    rfl
  | cons hm _ ih =>
    cases hn with
    | cons hn hns => simp [layout, ih hns]

/-- The texts sort as the lists of numbers do. -/
theorem layout_lt_iff {fields : List (ℕ × Char)} {ms ns : List ℕ} (hm : Fits fields ms)
    (hn : Fits fields ns) : layout fields ms < layout fields ns ↔ ms < ns := by
  induction hm generalizing ns with
  | nil =>
    cases hn
    exact iff_of_false (lt_irrefl _) (lt_irrefl _)
  | @cons field m fields ms hm _ ih =>
    cases hn with
    | @cons _ n _ ns hn hns =>
      rw [layout, layout, append_lt_append_iff (by simp), digits_lt_iff field.1 hm hn,
        digits_inj field.1 hm hn, List.cons_lt_cons_self, ih hns, List.cons_lt_cons_iff]

end Numerals
