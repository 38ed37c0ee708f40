import AcmeChampion.Dns.Types
import Mathlib.Tactic.SplitIfs

/-!
# The question

`Query.fromBytes` reads labels until an empty one or the end of the buffer, then the type and the
class, and only then builds the name.  A label is read where it stands, or at the octet a pointer
leads to.
-/

namespace AcmeChampion

open Text

structure Query where
  queryNameBytes : List UInt8
  queryNameString : String
  queryType : UInt16
  queryClass : UInt16
  isAcmeChallenge : Bool
  deriving DecidableEq

inductive QueryError
  | tooShort
  | tooLong
  | invalidLabelLength (octet : UInt8)
  | invalidNameEncoding
  deriving DecidableEq, Repr

/-- The label whose length octet is at `cursor`, and the offset after it. -/
def labelAt (bytes : List UInt8) (cursor : ℕ) :
    Checked (Except QueryError (List UInt8 × ℕ)) := do
  if bytes.length ≤ cursor then
    return .error .tooShort
  let labelLen := (← index bytes cursor).toNat
  let cursor := cursor + 1
  if cursor + labelLen > bytes.length then
    return .error .tooShort
  let result ← slice bytes cursor (cursor + labelLen)
  return .ok (result, cursor + labelLen)

/-- The label at `cursor`, or the one label that the pointer there leads to. -/
def readLabel (bytes : List UInt8) (cursor : ℕ) :
    Checked (Except QueryError (List UInt8 × ℕ)) :=
  match bytes[cursor]? with
  | some octet =>
    if octet &&& 0b11000000 = 0 then
      labelAt bytes cursor
    else if octet &&& 0b11000000 = 0b11000000 then do
      let ptr := ((← u16At bytes cursor) &&& 0b0011111111111111).toNat
      if ptr ≥ cursor then
        return .error (.invalidLabelLength octet)
      -- one label is taken from there, and the cursor passes the pointer only
      match ← labelAt bytes ptr with
      | .ok (label, _) => return .ok (label, cursor + 2)
      | .error e => return .error e
    else .ok (.error (.invalidLabelLength octet))
  | none => .ok (.error .tooShort)

theorem labelAt_eq (bytes : List UInt8) (cursor : ℕ) :
    labelAt bytes cursor = .ok (match bytes[cursor]? with
      | none => .error .tooShort
      | some n =>
        if cursor + 1 + n.toNat ≤ bytes.length then
          .ok ((bytes.drop (cursor + 1)).take n.toNat, cursor + 1 + n.toNat)
        else .error .tooShort) := by
  rcases hget : bytes[cursor]? with _ | n
  · have hlen : bytes.length ≤ cursor := List.getElem?_eq_none_iff.1 hget
    simp [labelAt, hlen, pure, Except.pure]
  · have hlen : ¬ bytes.length ≤ cursor := by
      obtain ⟨hlt, -⟩ := List.getElem?_eq_some_iff.1 hget
      omega
    simp only [labelAt, hlen, if_false, index_of_getElem? hget, Bind.bind, Except.bind]
    by_cases hfit : cursor + 1 + n.toNat ≤ bytes.length
    · rw [if_neg (by omega), if_pos hfit, slice_of_le (by omega) hfit]
      simp [pure, Except.pure, List.drop_take]
    · rw [if_pos (by omega), if_neg hfit]
      rfl

theorem lt_of_readLabel {bytes : List UInt8} {cursor newCursor : ℕ} {label : List UInt8}
    (h : readLabel bytes cursor = .ok (.ok (label, newCursor))) : cursor < newCursor := by
  unfold readLabel at h
  rcases hget : bytes[cursor]? with _ | octet
  · simp [hget] at h
  simp only [hget] at h
  split_ifs at h with h0 h1
  · rw [labelAt_eq, hget] at h
    simp only [Except.ok.injEq] at h
    split_ifs at h
    simp only [Except.ok.injEq, Prod.mk.injEq] at h
    omega
  · rcases hu : u16At bytes cursor with p | v <;>
      simp only [hu, Bind.bind, Except.bind, reduceCtorEq] at h
    split_ifs at h
    · simp [pure, Except.pure] at h
    · rw [labelAt_eq] at h
      simp only [pure, Except.pure] at h
      split at h
      · simp only [Except.ok.injEq, Prod.mk.injEq] at h
        omega
      · simp at h
  · simp at h

/-- The loop that reads the labels; `labels` are those read before `cursor`. -/
def labelLoop (bytes : List UInt8) (labels : List (List UInt8)) (cursor : ℕ) :
    Checked (Except QueryError (List (List UInt8) × ℕ)) :=
  if _h : cursor < bytes.length then
    match _hread : readLabel bytes cursor with
    | .error p => .error p
    | .ok (.error e) => .ok (.error e)
    | .ok (.ok (label, newCursor)) =>
      if label.length = 0 then .ok (.ok (labels ++ [label], newCursor))
      else labelLoop bytes (labels ++ [label]) newCursor
  else .ok (.ok (labels, cursor))
termination_by bytes.length - cursor
decreasing_by
  have := lt_of_readLabel _hread
  omega

/-- The loop that builds the name, as bytes and as a string, from the labels still to add. -/
def nameLoop : List (List UInt8) → List UInt8 → String → Except QueryError (List UInt8 × String)
  | [], queryNameBytes, queryNameString => .ok (queryNameBytes, queryNameString)
  | label :: labels, queryNameBytes, queryNameString =>
    if ¬ label.all isAscii then .error .invalidNameEncoding
    else
      match fromUtf8 label with
      | none => .error .invalidNameEncoding
      | some stringLabel =>
        let queryNameString :=
          if queryNameString ≠ "" ∧ stringLabel ≠ "" then queryNameString.push '.'
          else queryNameString
        let queryNameString := queryNameString ++ stringLabel
        if queryNameBytes.length + label.length + 1 > 255 then .error .tooLong
        else
          nameLoop labels (queryNameBytes ++ UInt8.ofNat label.length :: label) queryNameString

namespace Query

def startsAcmeChallenge : List (List UInt8) → Bool
  | [] => false
  | label :: _ => eqIgnoreAsciiCase label acmeChallengeLabel

def fromBytes (bytes : List UInt8) (cursor : ℕ) :
    Checked (Except (QueryError × ℕ) (Query × ℕ)) := do
  match ← labelLoop bytes [] cursor with
  | .error e => return .error (e, 0)
  | .ok (labels, cursor) =>
    let cursorAtEnd := cursor + 4
    let isAcmeChallenge := startsAcmeChallenge labels
    let queryType ← u16At bytes cursor
    let queryClass ← u16At bytes (cursor + 2)
    match nameLoop labels [] "" with
    | .error e => return .error (e, cursorAtEnd)
    | .ok (queryNameBytes, queryNameString) =>
      return .ok ({ queryNameBytes, queryNameString, queryType, queryClass, isAcmeChallenge },
        cursorAtEnd)

def toBytes (q : Query) : List UInt8 :=
  q.queryNameBytes ++ u16ToBeBytes q.queryType ++ u16ToBeBytes q.queryClass

end Query

end AcmeChampion
