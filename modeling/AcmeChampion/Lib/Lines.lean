import Mathlib.Data.Nat.Notation
import Mathlib.Data.Int.Notation
import Mathlib.Data.List.Basic

/-!
# Texts of one line

A text is inline when it holds no line feed, and one line when it ends with its only line feed.
Padded numbers and escaped texts are inline whatever they are made from (`inline_zeroPadded`,
`inline_escapeDebug`).
-/

namespace Lines

/-- The text holds no line feed. -/
def Inline (s : String) : Prop := '\n' ∉ s.toList

instance (s : String) : Decidable (Inline s) := inferInstanceAs (Decidable (_ ∉ _))

/-- The text ends with its only line feed. -/
def OneLine (s : String) : Prop := ∃ body, Inline body ∧ s = body ++ "\n"

@[simp] theorem inline_append {s t : String} : Inline (s ++ t) ↔ Inline s ∧ Inline t := by
  simp [Inline]

theorem inline_join {ss : List String} : Inline (String.join ss) ↔ ∀ s ∈ ss, Inline s := by
  simp [Inline]

theorem oneLine_append_iff {s : String} : OneLine (s ++ "\n") ↔ Inline s := by
  constructor
  · rintro ⟨body, hbody, heq⟩
    rw [String.append_left_inj] at heq
    exact heq ▸ hbody
  · intro h
    exact ⟨s, h, rfl⟩

theorem inline_replicate {c : Char} (h : c ≠ '\n') (n : ℕ) :
    Inline (String.ofList (List.replicate n c)) := by
  simp [Inline, h.symm]

/-! ## Numbers -/

theorem newline_not_mem_toDigits {b : ℕ} (hb : 1 < b) (n : ℕ) : '\n' ∉ Nat.toDigits b n := by
  have hdigit : ∀ k : ℕ, k.digitChar ≠ '\n' := fun k => Nat.digitChar_ne '\n' (by decide)
  induction n using Nat.strongRecOn with
  | ind n ih =>
    rw [Nat.toDigits_eq_if hb]
    split_ifs with hlt
    · rw [List.mem_singleton]
      exact (hdigit n).symm
    · have hdiv : n / b < n := Nat.div_lt_self (by omega) hb
      rw [List.mem_append, List.mem_singleton, not_or]
      exact ⟨ih _ hdiv, (hdigit (n % b)).symm⟩

/-- `{:0width}` of a number; the sign counts. -/
def zeroPadded (width : ℕ) (n : ℤ) : String :=
  let sign := if n < 0 then "-" else ""
  let digits := n.natAbs.repr
  sign ++ String.ofList (List.replicate (width - sign.length - digits.length) '0') ++ digits

/-- `{:>width}` -/
def spacePadded (width : ℕ) (s : String) : String :=
  String.ofList (List.replicate (width - s.length) ' ') ++ s

theorem inline_repr (n : ℕ) : Inline n.repr := by
  unfold Inline
  rw [Nat.toList_repr]
  exact newline_not_mem_toDigits (by decide) n

theorem inline_zeroPadded (width : ℕ) (n : ℤ) : Inline (zeroPadded width n) := by
  unfold zeroPadded
  simp only [inline_append]
  refine ⟨⟨?_, inline_replicate (by decide) _⟩, inline_repr _⟩
  split_ifs <;> decide

theorem inline_spacePadded {width : ℕ} {s : String} (h : Inline s) :
    Inline (spacePadded width s) :=
  inline_append.2 ⟨inline_replicate (by decide) _, h⟩

/-! ## Escapes -/

/-- The Unicode tables that decide how a character is shown. -/
structure CharTables where
  printable : Char → Bool
  graphemeExtended : Char → Bool

/-- `char::escape_unicode` -/
def escapeUnicode (c : Char) : String :=
  "\\u\x7b" ++ String.ofList (Nat.toDigits 16 c.toNat) ++ "\x7d"

/-- One character of `str::escape_debug`; only the first is escaped for extending a grapheme. -/
def escapeDebugChar (tables : CharTables) (first : Bool) (c : Char) : String :=
  match c.toNat with
  | 0 => "\\0"
  | 9 => "\\t"
  | 10 => "\\n"
  | 13 => "\\r"
  | 34 => "\\\""
  | 39 => "\\'"
  | 92 => "\\\\"
  | _ =>
    if first ∧ tables.graphemeExtended c then escapeUnicode c
    else if tables.printable c then String.singleton c
    else escapeUnicode c

/-- `str::escape_debug` -/
def escapeDebug (tables : CharTables) (s : String) : String :=
  match s.toList with
  | [] => ""
  | c :: cs =>
    escapeDebugChar tables true c ++ String.join (cs.map (escapeDebugChar tables false))

theorem inline_escapeUnicode (c : Char) : Inline (escapeUnicode c) := by
  unfold escapeUnicode
  simp only [inline_append]
  refine ⟨⟨by decide, ?_⟩, by decide⟩
  unfold Inline
  rw [String.toList_ofList]
  exact newline_not_mem_toDigits (by decide) _

theorem inline_escapeDebugChar (tables : CharTables) (first : Bool) (c : Char) :
    Inline (escapeDebugChar tables first c) := by
  unfold escapeDebugChar
  split
  case h_8 =>
    rename_i h10 _ _ _ _
    have hc : c ≠ '\n' := by
      rintro rfl
      exact h10 rfl
    split_ifs
    · exact inline_escapeUnicode c
    · simpa [Inline] using hc.symm
    · exact inline_escapeUnicode c
  all_goals decide

theorem inline_escapeDebug (tables : CharTables) (s : String) : Inline (escapeDebug tables s) := by
  unfold escapeDebug
  split
  · decide
  · refine inline_append.2 ⟨inline_escapeDebugChar tables true _, inline_join.2 ?_⟩
    intro t ht
    obtain ⟨c, -, rfl⟩ := List.mem_map.1 ht
    exact inline_escapeDebugChar tables false c

end Lines
