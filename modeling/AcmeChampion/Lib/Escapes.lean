import AcmeChampion.Lib.Lines
import Mathlib.Data.List.Infix

/-!
# Escaped text read back

The escape of a character tells it from what is behind (`unescapeOne_escapeDebugChar`), so a text
that is escaped and ended by a quote is read back from it (`escapeDebug_inj`).
-/

namespace Lines

/-! ## Hexadecimal numbers -/

def hexValue (c : Char) : ℕ := if c.toNat < 58 then c.toNat - 48 else c.toNat - 87

def ofHex (cs : List Char) : ℕ := cs.foldl (fun n c => 16 * n + hexValue c) 0

theorem hexValue_digitChar : ∀ n < 16, hexValue (Nat.digitChar n) = n := by decide

theorem ofHex_toDigits (n : ℕ) : ofHex (Nat.toDigits 16 n) = n := by
  induction n using Nat.strongRecOn with
  | ind n ih =>
    rw [Nat.toDigits_eq_if (by decide)]
    split_ifs with hlt
    · simp [ofHex, hexValue_digitChar n hlt]
    · have hdiv := ih (n / 16) (by omega)
      unfold ofHex at hdiv ⊢
      rw [List.foldl_append, hdiv, List.foldl_cons, List.foldl_nil,
        hexValue_digitChar _ (by omega)]
      omega

theorem brace_not_mem_toDigits (n : ℕ) : Char.ofNat 125 ∉ Nat.toDigits 16 n := by
  have hdigit : ∀ k : ℕ, k.digitChar ≠ Char.ofNat 125 := fun k => Nat.digitChar_ne _ (by decide)
  induction n using Nat.strongRecOn with
  | ind n ih =>
    rw [Nat.toDigits_eq_if (by decide)]
    split_ifs with hlt
    · rw [List.mem_singleton]
      exact (hdigit n).symm
    · rw [List.mem_append, List.mem_singleton, not_or]
      exact ⟨ih _ (by omega), (hdigit (n % 16)).symm⟩

/-! ## One character -/

/-- The character that the text begins with the escape of, and the rest. -/
def unescapeOne : List Char → Option (Char × List Char)
  | [] => none
  | c :: cs =>
    if c = '\\' then
      match cs with
      | [] => none
      | c :: cs =>
        match c.toNat with
        | 48 => some (Char.ofNat 0, cs)
        | 116 => some (Char.ofNat 9, cs)
        | 110 => some (Char.ofNat 10, cs)
        | 114 => some (Char.ofNat 13, cs)
        | 117 => some (Char.ofNat (ofHex (cs.tail.takeWhile (· ≠ Char.ofNat 125))),
            (cs.tail.dropWhile (· ≠ Char.ofNat 125)).tail)
        | _ => some (c, cs)
    else some (c, cs)

theorem unescapeOne_escapeUnicode (c : Char) (rest : List Char) :
    unescapeOne ((escapeUnicode c).toList ++ rest) = some (c, rest) := by
  have hdigits : ∀ d ∈ Nat.toDigits 16 c.toNat, decide (d ≠ Char.ofNat 125) = true := by
    intro d hd
    have hne : d ≠ Char.ofNat 125 := fun h => brace_not_mem_toDigits c.toNat (h ▸ hd)
    simpa using hne
  have htext : (escapeUnicode c).toList ++ rest =
      '\\' :: 'u' :: Char.ofNat 123 :: (Nat.toDigits 16 c.toNat ++ Char.ofNat 125 :: rest) := by
    simp [escapeUnicode, String.toList_append]
  rw [htext]
  show some (Char.ofNat (ofHex ((Nat.toDigits 16 c.toNat ++ Char.ofNat 125 :: rest).takeWhile
    (· ≠ Char.ofNat 125))), ((Nat.toDigits 16 c.toNat ++ Char.ofNat 125 :: rest).dropWhile
      (· ≠ Char.ofNat 125)).tail) = some (c, rest)
  rw [List.takeWhile_append_of_pos hdigits, List.dropWhile_append_of_pos hdigits]
  simp [ofHex_toDigits]

theorem unescapeOne_escapeDebugChar (tables : CharTables) (first : Bool) (c : Char)
    (rest : List Char) :
    unescapeOne ((escapeDebugChar tables first c).toList ++ rest) = some (c, rest) := by
  have hchar : ∀ n, c.toNat = n → Char.ofNat n = c := by
    rintro _ rfl
    exact Char.ofNat_toNat c
  unfold escapeDebugChar
  split
  case h_8 h92 =>
    split_ifs
    · exact unescapeOne_escapeUnicode c rest
    · have hc : c ≠ '\\' := fun h => h92 (by rw [h]; rfl)
      rw [String.toList_singleton, List.singleton_append]
      simp only [unescapeOne, if_neg hc]
    · exact unescapeOne_escapeUnicode c rest
  case h_1 h => exact congrArg (fun c => some (c, rest)) (hchar 0 h)
  case h_2 h => exact congrArg (fun c => some (c, rest)) (hchar 9 h)
  case h_3 h => exact congrArg (fun c => some (c, rest)) (hchar 10 h)
  case h_4 h => exact congrArg (fun c => some (c, rest)) (hchar 13 h)
  case h_5 h => exact congrArg (fun c => some (c, rest)) (hchar 34 h)
  case h_6 h => exact congrArg (fun c => some (c, rest)) (hchar 39 h)
  case h_7 h => exact congrArg (fun c => some (c, rest)) (hchar 92 h)

theorem escapeDebugChar_inj {tables : CharTables} {first : Bool} {c d : Char} {xs ys : List Char}
    (h : (escapeDebugChar tables first c).toList ++ xs =
      (escapeDebugChar tables first d).toList ++ ys) : c = d ∧ xs = ys := by
  have hread := congrArg unescapeOne h
  rw [unescapeOne_escapeDebugChar, unescapeOne_escapeDebugChar] at hread
  exact Prod.mk.inj (Option.some.inj hread)

/-- A quote is escaped, so it ends the text that is between quotes. -/
theorem escapeDebugChar_ne_quote (tables : CharTables) (first : Bool) (c : Char)
    (xs ys : List Char) : (escapeDebugChar tables first c).toList ++ xs ≠ '"' :: ys := by
  intro h
  have hread := congrArg unescapeOne h
  rw [unescapeOne_escapeDebugChar] at hread
  obtain ⟨rfl, -⟩ := Prod.mk.inj (Option.some.inj hread)
  have hescape : (escapeDebugChar tables first '"').toList = ['\\', '"'] := by
    simp [escapeDebugChar]
  rw [hescape] at h
  exact absurd (List.cons.inj h).1 (by decide)

/-! ## Texts -/

/-- Lists are taken apart at the first place where an element stands. -/
theorem append_cons_inj_of_first {α : Type*} {a : α} : ∀ {xs ys zs ws : List α}, a ∉ xs → a ∉ ys →
    xs ++ a :: zs = ys ++ a :: ws → xs = ys ∧ zs = ws
  | [], [], _, _, _, _, h => ⟨rfl, (List.cons.inj h).2⟩
  | [], y :: ys, _, _, _, hys, h => absurd ((List.cons.inj h).1 ▸ List.mem_cons_self) hys
  | x :: xs, [], _, _, hxs, _, h => absurd ((List.cons.inj h).1 ▸ List.mem_cons_self) hxs
  | x :: xs, y :: ys, zs, ws, hxs, hys, h => by
    obtain ⟨rfl, hrest⟩ := List.cons.inj h
    obtain ⟨rfl, hend⟩ := append_cons_inj_of_first (fun h => hxs (List.mem_cons_of_mem x h))
      (fun h => hys (List.mem_cons_of_mem x h)) hrest
    exact ⟨rfl, hend⟩

theorem flatMap_escapeDebugChar_inj {tables : CharTables} : ∀ {cs ds xs ys : List Char},
    cs.flatMap (fun c => (escapeDebugChar tables false c).toList) ++ '"' :: xs =
      ds.flatMap (fun c => (escapeDebugChar tables false c).toList) ++ '"' :: ys →
    cs = ds ∧ xs = ys
  | [], [], xs, ys, h => ⟨rfl, (List.cons.inj h).2⟩
  | [], d :: ds, xs, ys, h => by
    rw [List.flatMap_cons, List.append_assoc] at h
    exact absurd h.symm (escapeDebugChar_ne_quote tables false d _ _)
  | c :: cs, [], xs, ys, h => by
    rw [List.flatMap_cons, List.append_assoc] at h
    exact absurd h (escapeDebugChar_ne_quote tables false c _ _)
  | c :: cs, d :: ds, xs, ys, h => by
    rw [List.flatMap_cons, List.flatMap_cons, List.append_assoc, List.append_assoc] at h
    obtain ⟨rfl, hrest⟩ := escapeDebugChar_inj h
    obtain ⟨rfl, hend⟩ := flatMap_escapeDebugChar_inj hrest
    exact ⟨rfl, hend⟩

theorem toList_escapeDebug (tables : CharTables) (s : String) :
    (escapeDebug tables s).toList = match s.toList with
      | [] => []
      | c :: cs => (escapeDebugChar tables true c).toList ++
          cs.flatMap fun c => (escapeDebugChar tables false c).toList := by
  unfold escapeDebug
  rcases s.toList with _ | ⟨c, cs⟩
  · rfl
  · simp [String.toList_append, List.flatMap_def, Function.comp_def]

/-- Two texts that are escaped and ended by a quote are the same, and so is what is behind. -/
theorem escapeDebug_inj {tables : CharTables} {s t : String} {xs ys : List Char}
    (h : (escapeDebug tables s).toList ++ '"' :: xs = (escapeDebug tables t).toList ++ '"' :: ys) :
    s = t ∧ xs = ys := by
  rw [toList_escapeDebug, toList_escapeDebug] at h
  rcases hs : s.toList with _ | ⟨c, cs⟩ <;> rcases ht : t.toList with _ | ⟨d, ds⟩ <;>
    simp only [hs, ht, List.append_assoc] at h
  · exact ⟨String.toList_inj.1 (hs.trans ht.symm), (List.cons.inj h).2⟩
  · exact absurd h.symm (escapeDebugChar_ne_quote tables true d _ _)
  · exact absurd h (escapeDebugChar_ne_quote tables true c _ _)
  · obtain ⟨rfl, hrest⟩ := escapeDebugChar_inj h
    obtain ⟨rfl, hend⟩ := flatMap_escapeDebugChar_inj hrest
    exact ⟨String.toList_inj.1 (hs.trans ht.symm), hend⟩

end Lines
