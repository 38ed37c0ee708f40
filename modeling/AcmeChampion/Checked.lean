import AcmeChampion.Lib.Bytes

/-!
# Reads that may panic

An index or a slice out of range stops the process; a computation that may do so is a `Checked` one.
-/

namespace AcmeChampion

open Bytes

inductive Panic
  | indexOutOfBounds (index len : ℕ)
  | sliceOutOfBounds (first last len : ℕ)
  deriving DecidableEq, Repr

abbrev Checked := Except Panic

/-- `bytes[pos]` -/
def index (bytes : List UInt8) (pos : ℕ) : Checked UInt8 :=
  match bytes[pos]? with
  | some b => .ok b
  | none => .error (.indexOutOfBounds pos bytes.length)

/-- `&bytes[first..last]` -/
def slice (bytes : List UInt8) (first last : ℕ) : Checked (List UInt8) :=
  if first ≤ last ∧ last ≤ bytes.length then .ok ((bytes.take last).drop first)
  else .error (.sliceOutOfBounds first last bytes.length)

def u16At (bytes : List UInt8) (pos : ℕ) : Checked UInt16 := do
  let hi ← index bytes pos
  let lo ← index bytes (pos + 1)
  return UInt16.ofNat (fromBigEndian [hi, lo])

theorem index_of_getElem? {bytes : List UInt8} {pos : ℕ} {b : UInt8} (h : bytes[pos]? = some b) :
    index bytes pos = .ok b := by
  simp [index, h]

theorem slice_of_le {bytes : List UInt8} {first last : ℕ} (h : first ≤ last)
    (hl : last ≤ bytes.length) : slice bytes first last = .ok ((bytes.take last).drop first) := by
  simp [slice, h, hl]

theorem u16At_of_getElem? {bytes : List UInt8} {pos : ℕ} {hi lo : UInt8}
    (hhi : bytes[pos]? = some hi) (hlo : bytes[pos + 1]? = some lo) :
    u16At bytes pos = .ok (UInt16.ofNat (fromBigEndian [hi, lo])) := by
  simp [u16At, index, hhi, hlo, Bind.bind, Except.bind, pure, Except.pure]

theorem u16At_ok_iff {bytes : List UInt8} {pos : ℕ} :
    (∃ v, u16At bytes pos = .ok v) ↔ pos + 2 ≤ bytes.length := by
  constructor
  · rintro ⟨v, h⟩
    by_contra hlen
    have hlo : bytes[pos + 1]? = none := List.getElem?_eq_none (by omega)
    rcases hhi : bytes[pos]? with _ | hi <;>
      simp [u16At, index, hhi, hlo, Bind.bind, Except.bind] at h
  · intro h
    exact ⟨_, u16At_of_getElem? (List.getElem?_eq_getElem (by omega))
      (List.getElem?_eq_getElem (by omega))⟩

end AcmeChampion
