import Mathlib.Data.List.DropRight
import Mathlib.Tactic.SplitIfs

/-!
# Text as bytes

A string is known by its UTF-8 bytes (`utf8_inj`), and every ASCII byte string is the bytes of one
(`fromUtf8_of_ascii`).  Two byte strings are equal ignoring ASCII case when they are equal once
lowered, and lowering neither makes nor removes a byte that is not a letter.  Pieces joined with a
separator none of them holds are recovered by splitting at it, so the join is injective on them
(`intercalate_inj`).
-/

namespace Text

/-! ## UTF-8 -/

/-- The bytes a string is stored as. -/
def utf8 (s : String) : List UInt8 := s.toByteArray.data.toList

def fromUtf8 (bs : List UInt8) : Option String := String.fromUTF8? ⟨bs.toArray⟩

theorem utf8_inj {s t : String} (h : utf8 s = utf8 t) : s = t := by
  rw [← String.toByteArray_inj, ByteArray.ext_iff]
  exact Array.toList_inj.1 h

@[simp] theorem utf8_empty : utf8 "" = [] := rfl

@[simp] theorem utf8_append (s t : String) : utf8 (s ++ t) = utf8 s ++ utf8 t := by
  simp [utf8, String.toByteArray_append]

theorem utf8_eq_nil {s : String} : utf8 s = [] ↔ s = "" :=
  ⟨fun h => utf8_inj (by rw [h, utf8_empty]), fun h => by rw [h, utf8_empty]⟩

theorem utf8_of_fromUtf8 {bs : List UInt8} {s : String} (h : fromUtf8 bs = some s) :
    utf8 s = bs := by
  simp only [fromUtf8, String.fromUTF8?] at h
  split at h
  · simp only [Option.some.injEq] at h
    subst h
    simp [utf8, String.fromUTF8]
  · simp at h

theorem fromUtf8_utf8 (s : String) : fromUtf8 (utf8 s) = some s := by
  have hv : (⟨(utf8 s).toArray⟩ : ByteArray).IsValidUTF8 := by
    simpa [utf8] using s.isValidUTF8
  have hs : fromUtf8 (utf8 s) = some (String.fromUTF8 ⟨(utf8 s).toArray⟩ hv) := by
    simp [fromUtf8, String.fromUTF8?, hv]
  rw [hs, utf8_inj (utf8_of_fromUtf8 hs)]

theorem fromUtf8_eq_some_iff {bs : List UInt8} {s : String} : fromUtf8 bs = some s ↔ bs = utf8 s :=
  ⟨fun h => (utf8_of_fromUtf8 h).symm, fun h => h ▸ fromUtf8_utf8 s⟩

def isAscii (b : UInt8) : Bool := b < 128

theorem utf8EncodeChar_ascii {b : UInt8} (h : isAscii b) :
    String.utf8EncodeChar (Char.ofNat b.toNat) = [b] := by
  have hall : ∀ n < 128, String.utf8EncodeChar (Char.ofNat n) = [UInt8.ofNat n] := by
    decide +kernel
  have hb : b.toNat < 128 := by simpa [isAscii, UInt8.lt_iff_toNat_lt] using h
  simpa using hall b.toNat hb

theorem utf8Encode_ascii : ∀ bs : List UInt8, (∀ b ∈ bs, isAscii b) →
    (bs.map fun b => Char.ofNat b.toNat).utf8Encode.data.toList = bs
  | [], _ => rfl
  | b :: bs, h => by
    rw [List.map_cons, List.utf8Encode_cons]
    have hb := utf8EncodeChar_ascii (h b (by simp))
    have ih := utf8Encode_ascii bs fun c hc => h c (by simp [hc])
    simp [List.utf8Encode_singleton, hb, ih]

theorem fromUtf8_of_ascii {bs : List UInt8} (h : ∀ b ∈ bs, isAscii b) :
    ∃ s, fromUtf8 bs = some s ∧ utf8 s = bs := by
  have henc := utf8Encode_ascii bs h
  have hv : (⟨bs.toArray⟩ : ByteArray).IsValidUTF8 := by
    refine ⟨bs.map fun b => Char.ofNat b.toNat, ?_⟩
    rw [ByteArray.ext_iff, ← Array.toList_inj, henc]
  have hs : fromUtf8 bs = some (String.fromUTF8 ⟨bs.toArray⟩ hv) := by
    simp [fromUtf8, String.fromUTF8?, hv]
  exact ⟨_, hs, utf8_of_fromUtf8 hs⟩

theorem utf8_push_ascii (s : String) {c : Char} (h : c.toNat < 128) :
    utf8 (s.push c) = utf8 s ++ [UInt8.ofNat c.toNat] := by
  have hc := utf8EncodeChar_ascii (b := UInt8.ofNat c.toNat)
    (by simp [isAscii, UInt8.lt_iff_toNat_lt]; omega)
  have hn : (UInt8.ofNat c.toNat).toNat = c.toNat := by simp; omega
  rw [hn, Char.ofNat_toNat] at hc
  simp [utf8, String.toByteArray_push, List.utf8Encode_singleton, hc]

/-! ## Prefixes and ends -/

def startsWith (s pre : String) : Bool := pre.toList.isPrefixOf s.toList

theorem startsWith_iff {s pre : String} : startsWith s pre = true ↔ ∃ rest, s = pre ++ rest := by
  unfold startsWith
  rw [List.isPrefixOf_iff_prefix]
  constructor
  · rintro ⟨rest, h⟩
    refine ⟨String.ofList rest, ?_⟩
    rw [← String.toList_inj, String.toList_append, String.toList_ofList, h]
  · rintro ⟨rest, rfl⟩
    exact ⟨rest.toList, (String.toList_append).symm⟩

/-- `str::trim_end_matches`, with a character. -/
def trimEndMatches (c : Char) (s : String) : String := String.ofList (s.toList.rdropWhile (· == c))

/-- Trimmed texts are equal when the texts differ in how often the character ends them, and only
then. -/
theorem trimEndMatches_eq_iff {c : Char} {s t : String} :
    trimEndMatches c s = trimEndMatches c t ↔
      ∃ body i j, s.toList = body ++ List.replicate i c ∧
        t.toList = body ++ List.replicate j c := by
  have hsplit : ∀ xs : List Char,
      ∃ i, xs = xs.rdropWhile (· == c) ++ List.replicate i c := by
    intro xs
    have hdots : xs.rtakeWhile (· == c) = List.replicate (xs.rtakeWhile (· == c)).length c := by
      refine List.eq_replicate_length.2 fun b hb => ?_
      have hb := List.mem_rtakeWhile_imp hb
      exact beq_iff_eq.1 hb
    refine ⟨(xs.rtakeWhile (· == c)).length, ?_⟩
    rw [← hdots, List.rdropWhile_append_rtakeWhile]
  have hdrop : ∀ (body : List Char) (i : ℕ),
      (body ++ List.replicate i c).rdropWhile (· == c) = body.rdropWhile (· == c) := by
    intro body i
    induction i with
    | zero => simp
    | succ i ih =>
      rw [List.replicate_succ', ← List.append_assoc, List.rdropWhile_concat_pos _ _ _ (by simp), ih]
  unfold trimEndMatches
  rw [String.ofList_inj]
  constructor
  · intro h
    obtain ⟨i, hi⟩ := hsplit s.toList
    obtain ⟨j, hj⟩ := hsplit t.toList
    exact ⟨_, i, j, hi, h ▸ hj⟩
  · rintro ⟨body, i, j, hs, ht⟩
    rw [hs, ht, hdrop, hdrop]

/-! ## Letter case -/

def toAsciiLowercase (b : UInt8) : UInt8 := if 65 ≤ b ∧ b ≤ 90 then b + 32 else b

/-- The bytes with every ASCII letter in lower case. -/
def lowered (bs : List UInt8) : List UInt8 := bs.map toAsciiLowercase

/-- `<[u8]>::eq_ignore_ascii_case`, and `str::eq_ignore_ascii_case` on the bytes of the strings. -/
def eqIgnoreAsciiCase (a b : List UInt8) : Bool := lowered a == lowered b

theorem eqIgnoreAsciiCase_iff {a b : List UInt8} :
    eqIgnoreAsciiCase a b = true ↔ lowered a = lowered b := by
  simp [eqIgnoreAsciiCase]

@[simp] theorem length_lowered (bs : List UInt8) : (lowered bs).length = bs.length := by
  simp [lowered]

theorem toAsciiLowercase_eq_dot (b : UInt8) : toAsciiLowercase b = 46 ↔ b = 46 := by
  have h : ∀ n < 256, toAsciiLowercase (UInt8.ofNat n) = 46 ↔ UInt8.ofNat n = 46 := by
    decide +kernel
  simpa using h b.toNat b.toNat_lt

/-! ## Joining and splitting -/

section Join

variable {α : Type*} [BEq α] [LawfulBEq α] {x : α}

theorem not_mem_of_mem_splitOn : ∀ {xs l : List α}, l ∈ xs.splitOn x → x ∉ l
  | [], l, h => by
    simp only [List.splitOn_nil, List.mem_singleton] at h
    simp [h]
  | y :: ys, l, h => by
    rw [List.splitOn_cons_eq_if_modifyHead] at h
    obtain ⟨p, ps, hps⟩ := List.exists_cons_of_ne_nil (List.splitOn_ne_nil x ys)
    have ih : ∀ l ∈ p :: ps, x ∉ l := fun l hl => not_mem_of_mem_splitOn (hps ▸ hl)
    rw [hps] at h
    split_ifs at h with hy
    · rcases List.mem_cons.1 h with rfl | h
      · simp
      · exact ih l h
    · simp only [List.modifyHead_cons, List.mem_cons] at h
      rcases h with rfl | h
      · have hp := ih p (by simp)
        have hxy : x ≠ y := fun hxy => hy (by simp [hxy])
        simp [hxy, hp]
      · exact ih l (by simp [h])

/-- Pieces that hold no separator are what their join splits into, and only they are. -/
theorem splitOn_intercalate_iff {ls : List (List α)} (hls : ls ≠ []) :
    ([x].intercalate ls).splitOn x = ls ↔ ∀ l ∈ ls, x ∉ l := by
  refine ⟨fun h l hl => ?_, fun h => List.splitOn_intercalate x h hls⟩
  rw [← h] at hl
  exact not_mem_of_mem_splitOn hl

theorem intercalate_inj {ls ls' : List (List α)} (hls : ls ≠ []) (hls' : ls' ≠ [])
    (hx : ∀ l ∈ ls, x ∉ l) (hx' : ∀ l ∈ ls', x ∉ l)
    (h : [x].intercalate ls = [x].intercalate ls') : ls = ls' := by
  rw [← (splitOn_intercalate_iff hls).2 hx, h, (splitOn_intercalate_iff hls').2 hx']

theorem splitOn_map {f : α → α} (hf : ∀ a, f a = x ↔ a = x) :
    ∀ xs : List α, (xs.map f).splitOn x = (xs.splitOn x).map (List.map f)
  | [] => by simp
  | y :: ys => by
    rw [List.map_cons, List.splitOn_cons_eq_if_modifyHead, List.splitOn_cons_eq_if_modifyHead,
      splitOn_map hf ys]
    obtain ⟨p, ps, hps⟩ := List.exists_cons_of_ne_nil (List.splitOn_ne_nil x ys)
    have hfy : (f y == x) = (y == x) :=
      Bool.eq_iff_iff.mpr (by rw [beq_iff_eq, beq_iff_eq, hf])
    rw [hps, hfy]
    split_ifs <;> simp

end Join

/-! ## Names in dotted form -/

def dotted (ls : List (List UInt8)) : List UInt8 := [46].intercalate ls

theorem dotted_cons_cons (l k : List UInt8) (ls : List (List UInt8)) :
    dotted (l :: k :: ls) = l ++ 46 :: dotted (k :: ls) := by
  simp [dotted, List.intercalate_cons_cons]

theorem dotted_ne_nil {ls : List (List UInt8)} (hls : ls ≠ []) (h : ∀ l ∈ ls, l ≠ []) :
    dotted ls ≠ [] := by
  match ls, h with
  | [l], h => simpa [dotted] using h
  | l :: k :: ls, h => simp [dotted_cons_cons]

theorem dotted_concat : ∀ (ls : List (List UInt8)) (l : List UInt8),
    dotted (ls ++ [l]) = if ls = [] then l else dotted ls ++ 46 :: l
  | [], l => by simp [dotted]
  | [k], l => by simp [dotted, List.intercalate_cons_cons]
  | k :: k' :: ls, l => by
    have ih := dotted_concat (k' :: ls) l
    simp only [List.cons_append, reduceCtorEq, if_false] at ih ⊢
    rw [dotted_cons_cons, ih, dotted_cons_cons]
    simp

theorem lowered_dotted : ∀ ls : List (List UInt8), lowered (dotted ls) = dotted (ls.map lowered)
  | [] => rfl
  | [l] => by simp [dotted]
  | l :: k :: ls => by
    have ih := lowered_dotted (k :: ls)
    have hdot : toAsciiLowercase 46 = 46 := rfl
    simp only [lowered, List.map_cons] at ih ⊢
    rw [dotted_cons_cons, dotted_cons_cons, List.map_append, List.map_cons, hdot, ih]

theorem ascii_dotted : ∀ {ls : List (List UInt8)}, (∀ l ∈ ls, ∀ b ∈ l, isAscii b) →
    ∀ b ∈ dotted ls, isAscii b
  | [], _ => by simp [dotted]
  | [l], h => by simpa [dotted] using h
  | l :: k :: ls, h => by
    have ih := @ascii_dotted (k :: ls) fun j hj => h j (by simp [hj])
    have hl := h l (by simp)
    rw [dotted_cons_cons]
    simp only [List.mem_append, List.mem_cons]
    rintro b (hb | rfl | hb)
    · exact hl b hb
    · rfl
    · exact ih b hb

end Text
