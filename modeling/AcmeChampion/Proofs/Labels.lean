import AcmeChampion.Dns.Query
import AcmeChampion.Lib.Wire

/-!
# What the label loop reads

`LabelEntry m c l c'` says, on the octets alone, that a label `l` stands at `c` and the next one at
`c'`, and `LabelRun` strings nonempty ones together.  `readLabel` reads exactly the entries
(`readLabel_ok_iff`), so the loop follows the run of labels and the run's end decides its outcome
(`labelLoop_cases`).
-/

namespace AcmeChampion

open Bytes Wire

def pointerTarget (hi lo : UInt8) : ℕ := (hi.toNat - 192) * 256 + lo.toNat

/-- A label stands at `c`: its octets are there, or behind the length octet that an earlier offset
spelled there leads to. -/
inductive LabelEntry (m : List UInt8) (c : ℕ) : Label → ℕ → Prop
  | literal {n : UInt8} (hn : m[c]? = some n) (h64 : n.toNat < 64)
      (hfit : c + 1 + n.toNat ≤ m.length) :
      LabelEntry m c ((m.drop (c + 1)).take n.toNat) (c + 1 + n.toNat)
  | pointer {hi lo n : UInt8} (hhi : m[c]? = some hi) (h192 : 192 ≤ hi.toNat)
      (hlo : m[c + 1]? = some lo) (hback : pointerTarget hi lo < c)
      (hn : m[pointerTarget hi lo]? = some n)
      (hfit : pointerTarget hi lo + 1 + n.toNat ≤ m.length) :
      LabelEntry m c ((m.drop (pointerTarget hi lo + 1)).take n.toNat) (c + 2)

/-- Nonempty labels stand one after the other from `c` on, the last one before `e`. -/
inductive LabelRun (m : List UInt8) : ℕ → List Label → ℕ → Prop
  | nil (c : ℕ) : LabelRun m c [] c
  | cons {c c' e : ℕ} {l : Label} {ls : List Label} (hl : LabelEntry m c l c') (hne : l ≠ [])
      (hls : LabelRun m c' ls e) : LabelRun m c (l :: ls) e

/-- A pointer begins with the last octet of the message. -/
def CutPointer (m : List UInt8) (c : ℕ) : Prop :=
  ∃ hi, m[c]? = some hi ∧ 192 ≤ hi.toNat ∧ c + 1 = m.length

variable {m : List UInt8}

/-! ## One label -/

theorem LabelEntry.lt_length {c c' : ℕ} {l : Label} (h : LabelEntry m c l c') : c < m.length := by
  cases h with
  | literal hn _ _ => exact (List.getElem?_eq_some_iff.1 hn).1
  | pointer hhi _ _ _ _ _ => exact (List.getElem?_eq_some_iff.1 hhi).1

theorem LabelEntry.length_lt {c c' : ℕ} {l : Label} (h : LabelEntry m c l c') :
    l.length < 256 := by
  cases h with
  | @literal n _ _ _ =>
    have := n.toNat_lt
    simp only [List.length_take, List.length_drop]
    omega
  | @pointer _ _ n _ _ _ _ _ _ =>
    have := n.toNat_lt
    simp only [List.length_take, List.length_drop]
    omega

theorem toNat_pointer {hi : UInt8} (lo : UInt8) (h : 192 ≤ hi.toNat) :
    ((UInt16.ofNat (fromBigEndian [hi, lo])) &&& 0b0011111111111111).toNat
      = pointerTarget hi lo := by
  have hhi := hi.toNat_lt
  have hlo := lo.toNat_lt
  have hmask : (0b0011111111111111 : UInt16).toNat = 2 ^ 14 - 1 := rfl
  rw [UInt16.toNat_and, hmask, Nat.and_two_pow_sub_one_eq_mod, UInt16.toNat_ofNat',
    fromBigEndian_pair, pointerTarget]
  omega

theorem readLabel_eq (m : List UInt8) (c : ℕ) : readLabel m c =
    match m[c]? with
    | none => .ok (.error .tooShort)
    | some octet =>
      if octet.toNat < 64 then labelAt m c
      else if 192 ≤ octet.toNat then
        match m[c + 1]? with
        | none => .error (.indexOutOfBounds (c + 1) m.length)
        | some lo =>
          if c ≤ pointerTarget octet lo then .ok (.error (.invalidLabelLength octet))
          else (labelAt m (pointerTarget octet lo)).map fun r => r.map fun p => (p.1, c + 2)
      else .ok (.error (.invalidLabelLength octet)) := by
  unfold readLabel
  rcases hc : m[c]? with _ | octet
  · rfl
  simp only [and_top_eq_zero, and_top_eq_top]
  split_ifs with h64 h192
  · rfl
  · rcases hlo : m[c + 1]? with _ | lo
    · simp [u16At, index, hc, hlo, Bind.bind, Except.bind]
    · simp only [u16At_of_getElem? hc hlo, Bind.bind, Except.bind, toNat_pointer lo h192,
        labelAt_eq, ge_iff_le]
      split_ifs
      · rfl
      · split <;> simp_all [Except.map, pure, Except.pure]
  · rfl

theorem labelAt_ok_iff {c c' : ℕ} {l : Label} : labelAt m c = .ok (.ok (l, c')) ↔
    ∃ n, m[c]? = some n ∧ c + 1 + n.toNat ≤ m.length ∧
      l = (m.drop (c + 1)).take n.toNat ∧ c' = c + 1 + n.toNat := by
  rw [labelAt_eq]
  rcases hc : m[c]? with _ | n
  · simp
  · by_cases hfit : c + 1 + n.toNat ≤ m.length
    · simp [hfit, eq_comm]
    · simp [hfit]

theorem readLabel_ok_iff {c c' : ℕ} {l : Label} :
    readLabel m c = .ok (.ok (l, c')) ↔ LabelEntry m c l c' := by
  rw [readLabel_eq]
  constructor
  · intro h
    rcases hc : m[c]? with _ | octet <;> simp only [hc] at h
    · simp at h
    split_ifs at h with h64 h192
    · obtain ⟨n, hn, hfit, rfl, rfl⟩ := labelAt_ok_iff.1 h
      exact .literal hn (by simp_all) hfit
    · rcases hlo : m[c + 1]? with _ | lo <;> simp only [hlo] at h
      · simp at h
      split_ifs at h with hback
      · simp at h
      · rcases hat : labelAt m (pointerTarget octet lo) with p | e | ⟨k, d⟩ <;>
          simp only [hat, Except.map, Except.ok.injEq, Prod.mk.injEq, reduceCtorEq] at h
        obtain ⟨rfl, rfl⟩ := h
        obtain ⟨n, hn, hfit, rfl, -⟩ := labelAt_ok_iff.1 hat
        exact .pointer hc h192 hlo (by omega) hn hfit
    · simp at h
  · intro h
    cases h with
    | literal hn h64 hfit =>
      simp only [hn, h64, if_true]
      exact labelAt_ok_iff.2 ⟨_, hn, hfit, rfl, rfl⟩
    | @pointer hi lo n hhi h192 hlo hback hn hfit =>
      have hat := labelAt_ok_iff.2 ⟨n, hn, hfit, rfl, rfl⟩
      simp only [hhi, hlo, hat]
      rw [if_neg (by omega), if_pos h192, if_neg (by omega)]
      rfl

theorem readLabel_error_iff {c : ℕ} : (∃ p, readLabel m c = .error p) ↔ CutPointer m c := by
  rw [readLabel_eq]
  constructor
  · rintro ⟨p, h⟩
    rcases hc : m[c]? with _ | octet <;> simp only [hc, reduceCtorEq] at h
    split_ifs at h with h64 h192
    · simp [labelAt_eq] at h
    · rcases hlo : m[c + 1]? with _ | lo <;> simp only [hlo] at h
      · have h1 := (List.getElem?_eq_some_iff.1 hc).1
        have h2 := List.getElem?_eq_none_iff.1 hlo
        exact ⟨octet, hc, h192, by omega⟩
      · split_ifs at h
        simp [labelAt_eq, Except.map] at h
  · rintro ⟨hi, hhi, h192, hend⟩
    have hlo : m[c + 1]? = none := List.getElem?_eq_none_iff.2 (by omega)
    refine ⟨.indexOutOfBounds (c + 1) m.length, ?_⟩
    simp only [hhi, hlo]
    rw [if_neg (by omega), if_pos h192]

/-! ## The loop -/

theorem labelLoop_of_lt {c : ℕ} (h : c < m.length) (acc : List Label) :
    labelLoop m acc c = (readLabel m c).bind fun
      | .error e => .ok (.error e)
      | .ok (label, newCursor) =>
        if label.length = 0 then .ok (.ok (acc ++ [label], newCursor))
        else labelLoop m (acc ++ [label]) newCursor := by
  rw [labelLoop, dif_pos h]
  split <;> simp_all [Except.bind]

theorem labelLoop_of_length_le {c : ℕ} (h : m.length ≤ c) (acc : List Label) :
    labelLoop m acc c = .ok (.ok (acc, c)) := by
  rw [labelLoop, dif_neg (by omega)]

theorem labelLoop_of_run {c e : ℕ} {ls : List Label} (h : LabelRun m c ls e) (acc : List Label) :
    labelLoop m acc c = labelLoop m (acc ++ ls) e := by
  induction h generalizing acc with
  | nil c => simp
  | @cons c c' e l ls hl hne _ ih =>
    have hlen : l.length ≠ 0 := fun h0 => hne (List.length_eq_zero_iff.1 h0)
    rw [labelLoop_of_lt hl.lt_length, readLabel_ok_iff.2 hl]
    simp only [Except.bind, hlen, if_false]
    rw [ih, List.append_assoc, List.singleton_append]

theorem labelLoop_of_root {c c' : ℕ} (h : LabelEntry m c [] c') (acc : List Label) :
    labelLoop m acc c = .ok (.ok (acc ++ [[]], c')) := by
  rw [labelLoop_of_lt h.lt_length, readLabel_ok_iff.2 h]
  rfl

theorem labelLoop_of_cut {c : ℕ} (h : CutPointer m c) (acc : List Label) :
    ∃ p, labelLoop m acc c = .error p := by
  obtain ⟨p, hp⟩ := readLabel_error_iff.2 h
  obtain ⟨hi, hhi, -, -⟩ := h
  refine ⟨p, ?_⟩
  rw [labelLoop_of_lt (List.getElem?_eq_some_iff.1 hhi).1, hp]
  rfl

/-- How a run of labels ends: with the message, with an empty label, with a pointer that is cut,
or with octets that are no label. -/
theorem labelLoop_cases (m : List UInt8) (acc : List Label) (c : ℕ) :
    ∃ ls e, LabelRun m c ls e ∧
      (m.length ≤ e ∨ (∃ e', LabelEntry m e [] e') ∨ CutPointer m e ∨
        ∃ err, labelLoop m acc c = .ok (.error err)) := by
  induction acc, c using labelLoop.induct m with
  | case1 acc c hlt p hread =>
    exact ⟨[], c, .nil c, .inr (.inr (.inl (readLabel_error_iff.1 ⟨p, hread⟩)))⟩
  | case2 acc c hlt err hread =>
    refine ⟨[], c, .nil c, .inr (.inr (.inr ⟨err, ?_⟩))⟩
    rw [labelLoop_of_lt hlt, hread]
    rfl
  | case3 acc c hlt l c' hread hlen =>
    obtain rfl := List.length_eq_zero_iff.1 hlen
    exact ⟨[], c, .nil c, .inr (.inl ⟨c', readLabel_ok_iff.1 hread⟩)⟩
  | case4 acc c hlt l c' hread hlen ih =>
    have hl := readLabel_ok_iff.1 hread
    have hne : l ≠ [] := fun h0 => hlen (List.length_eq_zero_iff.2 h0)
    have hstep := labelLoop_of_run (.cons hl hne (.nil c')) acc
    obtain ⟨ls, e, hrun, hend⟩ := ih
    exact ⟨l :: ls, e, .cons hl hne hrun, hstep ▸ hend⟩
  | case5 acc c hlt => exact ⟨[], c, .nil c, .inl (by omega)⟩

/-! ## Runs -/

theorem LabelRun.ne_nil {c e : ℕ} {ls : List Label} (h : LabelRun m c ls e) :
    ∀ l ∈ ls, l ≠ [] := by
  induction h with
  | nil => simp
  | cons _ hne _ ih => simpa using ⟨hne, ih⟩

theorem LabelRun.length_lt {c e : ℕ} {ls : List Label} (h : LabelRun m c ls e) :
    ∀ l ∈ ls, l.length < 256 := by
  induction h with
  | nil => simp
  | cons hl _ _ ih => simpa using ⟨hl.length_lt, ih⟩

theorem labelRun_octets : ∀ (ls : List Label) (pre post : List UInt8),
    (∀ l ∈ ls, 0 < l.length ∧ l.length < 64) →
      LabelRun (pre ++ (labelOctets ls ++ post)) pre.length ls
        (pre.length + (labelOctets ls).length)
  | [], pre, post, _ => .nil _
  | l :: ls, pre, post, h => by
    have hl := h l (by simp)
    have hn : (UInt8.ofNat l.length).toNat = l.length :=
      UInt8.toNat_ofNat_of_lt' (show l.length < 256 by omega)
    have ih := labelRun_octets ls (pre ++ UInt8.ofNat l.length :: l) post
      fun k hk => h k (by simp [hk])
    have hcat : pre ++ (labelOctets (l :: ls) ++ post)
        = (pre ++ UInt8.ofNat l.length :: l) ++ (labelOctets ls ++ post) := by simp
    have hlen : (pre ++ UInt8.ofNat l.length :: l).length = pre.length + 1 + l.length := by
      simp
      omega
    have hentry := @LabelEntry.literal
      ((pre ++ UInt8.ofNat l.length :: l) ++ (labelOctets ls ++ post)) pre.length
      (UInt8.ofNat l.length) (by simp) (by omega) (by rw [List.length_append]; omega)
    have hdrop : ((pre ++ UInt8.ofNat l.length :: l) ++ (labelOctets ls ++ post)).drop
        (pre.length + 1) = l ++ (labelOctets ls ++ post) := by simp
    rw [hdrop, hn, List.take_left] at hentry
    rw [hlen] at ih
    have hend : pre.length + (labelOctets (l :: ls)).length
        = pre.length + 1 + l.length + (labelOctets ls).length := by
      simp
      omega
    rw [hcat, hend]
    exact .cons hentry (List.length_pos_iff.1 hl.1) ih

end AcmeChampion
