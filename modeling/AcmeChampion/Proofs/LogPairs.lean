import AcmeChampion.Lib.Escapes
import AcmeChampion.Proofs.LogLines

/-!
# What a log line says of its values

An unquoted value ends with the first space behind it, or with the record, and a quoted one with the
first quote that is not escaped; and the escape sequences of the styles hold nothing that ends a
key.  So what `formatRecord` writes of two records of one kind is the same only if their keys and
values are (`formatRecord_inj`).  A stream that takes the sequences out again takes them out of the
values too, and what it leaves is not treated here.
-/

namespace AcmeChampion

open Lines Logger

/-- The characters of the sequences that switch styles on and off. -/
def ansiChars : List Char :=
  [Char.ofNat 27, '[', ';', 'm', '0', '1', '2', '3', '4', '5', '6', '7', '8', '9']

/-- The style is switched on and off by escape sequences, or by nothing. -/
def Logger.Style.Ansi (style : Style) : Prop :=
  ∀ c ∈ style.set.toList ++ style.reset.toList, c ∈ ansiChars

instance (style : Style) : Decidable style.Ansi := List.decidableBAll _ _

structure Logger.Styles.Ansi (styles : Styles) : Prop where
  level : ∀ level, (styles.defaultLevelStyle level).Ansi
  bold : ∀ style : Style, style.Ansi → (styles.bold style).Ansi

theorem Logger.Style.Ansi.not_mem {style : Style} (h : style.Ansi) {c : Char} (hc : c ∉ ansiChars) :
    c ∉ style.set.toList ∧ c ∉ style.reset.toList :=
  ⟨fun hmem => hc (h c (List.mem_append_left _ hmem)),
    fun hmem => hc (h c (List.mem_append_right _ hmem))⟩

/-- What stands before the space in front of a key, and what behind the key. -/
def pairStart : LogFormat → List Char
  | .plain => []
  | .pretty => [',']

def pairMiddle : LogFormat → Char × List Char
  | .plain => ('=', [])
  | .pretty => (':', [' '])

/-- The key has none of the characters that stand behind a key. -/
def PlainKey (key : String) : Prop := '=' ∉ key.toList ∧ ':' ∉ key.toList

/-- What may stand behind a value: the next pair, or nothing. -/
def Behind (format : LogFormat) (rest : List Char) : Prop :=
  rest = [] ∨ ∃ more, rest = pairStart format ++ ' ' :: more

def pairsText (format : LogFormat) (styles : Styles) (tables : CharTables) (style : Style)
    (kvs : List (String × String)) : List Char :=
  kvs.flatMap fun kv => (visitPair format styles tables style kv.1 kv.2).toList

/-- The key and the sequences behind it, up to the sign that ends them. -/
def keyText (styles : Styles) (style : Style) (key : String) : List Char :=
  key.toList ++ ((styles.bold style).reset.toList ++ style.set.toList)

theorem toList_visitPair (format : LogFormat) (styles : Styles) (tables : CharTables)
    (style : Style) (key value : String) :
    (visitPair format styles tables style key value).toList =
      pairStart format ++ ' ' :: ((styles.bold style).set.toList ++ (keyText styles style key ++
        (pairMiddle format).1 :: ((pairMiddle format).2 ++
          (formatValue tables value).toList))) := by
  unfold visitPair keyText
  cases format <;> simp [pairStart, pairMiddle, String.toList_append]

theorem behind_pairsText (format : LogFormat) (styles : Styles) (tables : CharTables)
    (style : Style) : ∀ kvs, Behind format (pairsText format styles tables style kvs)
  | [] => .inl rfl
  | kv :: kvs => by
    rw [pairsText, List.flatMap_cons, toList_visitPair, List.append_assoc, List.cons_append]
    exact .inr ⟨_, rfl⟩

/-- The sign that ends a key is neither in the key nor in the sequences behind it. -/
theorem not_mem_keyText {styles : Styles} {style : Style} (hstyle : style.Ansi)
    (hbold : (styles.bold style).Ansi) {key : String} (hkey : PlainKey key) (format : LogFormat) :
    (pairMiddle format).1 ∉ keyText styles style key := by
  have hsign : (pairMiddle format).1 ∉ ansiChars := by cases format <;> decide
  have hplain : (pairMiddle format).1 ∉ key.toList := by
    cases format with
    | plain => exact hkey.1
    | pretty => exact hkey.2
  unfold keyText
  rw [List.mem_append, List.mem_append, not_or, not_or]
  exact ⟨hplain, (hbold.not_mem hsign).2, (hstyle.not_mem hsign).1⟩

/-- Behind an unquoted value stands nothing that is taken for a part of it. -/
theorem unquoted_inj {format : LogFormat} {v v' rest rest' : List Char} (hv : ' ' ∉ v)
    (hv' : ' ' ∉ v') (hrest : Behind format rest) (hrest' : Behind format rest')
    (h : v ++ rest = v' ++ rest') : v = v' ∧ rest = rest' := by
  have hstart : ' ' ∉ pairStart format := by cases format <;> decide
  rcases hrest with rfl | ⟨more, rfl⟩ <;> rcases hrest' with rfl | ⟨more', rfl⟩
  · exact ⟨by simpa using h, rfl⟩
  · rw [List.append_nil] at h
    exact absurd (h ▸ hv) (by simp)
  · rw [List.append_nil] at h
    exact absurd (h ▸ hv') (by simp)
  · rw [← List.append_assoc, ← List.append_assoc] at h
    have hnot : ∀ {w : List Char}, ' ' ∉ w → ' ' ∉ w ++ pairStart format := fun hw hmem =>
      (List.mem_append.1 hmem).elim hw hstart
    obtain ⟨hstarts, rfl⟩ := append_cons_inj_of_first (hnot hv) (hnot hv') h
    exact ⟨List.append_cancel_right hstarts, rfl⟩

/-- A quoted value and an unquoted one begin with different characters. -/
theorem quoted_ne_unquoted {format : LogFormat} {s v rest : List Char} (hv : '"' ∉ v)
    (hrest : Behind format rest) : '"' :: s ≠ v ++ rest := by
  intro h
  rcases v with _ | ⟨c, v⟩
  · rcases hrest with rfl | ⟨more, rfl⟩
    · cases h
    · cases format <;> exact absurd (List.cons.inj h).1 (by decide)
  · exact hv ((List.cons.inj h).1 ▸ List.mem_cons_self)

theorem formatValue_inj {format : LogFormat} {tables : CharTables} {v v' : String}
    {rest rest' : List Char} (hrest : Behind format rest) (hrest' : Behind format rest')
    (h : (formatValue tables v).toList ++ rest = (formatValue tables v').toList ++ rest') :
    v = v' ∧ rest = rest' := by
  have hplain : ∀ v : String, ¬ v.toList.any (needsEscape.contains ·) →
      ' ' ∉ v.toList ∧ '"' ∉ v.toList := by
    intro v hv
    simp only [List.any_eq_true, not_exists, not_and] at hv
    exact ⟨fun hmem => hv ' ' hmem (by decide), fun hmem => hv '"' hmem (by decide)⟩
  have hquoted : ∀ (v : String) (rest : List Char), ("\"" ++ escapeDebug tables v ++ "\"").toList ++
      rest = '"' :: ((escapeDebug tables v).toList ++ '"' :: rest) := by
    intro v rest
    simp [String.toList_append]
  unfold formatValue at h
  split_ifs at h with hv hv' hv'
  · rw [hquoted, hquoted] at h
    exact escapeDebug_inj (List.cons.inj h).2
  · rw [hquoted] at h
    exact absurd h (quoted_ne_unquoted (hplain v' hv').2 hrest')
  · rw [hquoted] at h
    exact absurd h.symm (quoted_ne_unquoted (hplain v hv).2 hrest)
  · obtain ⟨heq, hrests⟩ := unquoted_inj (hplain v hv).1 (hplain v' hv').1 hrest hrest' h
    exact ⟨String.toList_inj.1 heq, hrests⟩

theorem pairsText_inj {format : LogFormat} {styles : Styles} {tables : CharTables} {style : Style}
    (hstyle : style.Ansi) (hbold : (styles.bold style).Ansi) :
    ∀ {kvs kvs' : List (String × String)}, (∀ kv ∈ kvs, PlainKey kv.1) →
      (∀ kv ∈ kvs', PlainKey kv.1) →
      pairsText format styles tables style kvs = pairsText format styles tables style kvs' →
      kvs = kvs'
  | [], [], _, _, _ => rfl
  | [], kv :: kvs, _, _, h => by
    rw [pairsText, pairsText, List.flatMap_cons, toList_visitPair] at h
    exact absurd (congrArg List.length h) (by simp)
  | kv :: kvs, [], _, _, h => by
    rw [pairsText, pairsText, List.flatMap_cons, toList_visitPair] at h
    exact absurd (congrArg List.length h) (by simp)
  | (key, value) :: kvs, (key', value') :: kvs', hkeys, hkeys', h => by
    have hkey : (pairMiddle format).1 ∉ keyText styles style key :=
      not_mem_keyText hstyle hbold (hkeys (key, value) (by simp)) format
    have hkey' : (pairMiddle format).1 ∉ keyText styles style key' :=
      not_mem_keyText hstyle hbold (hkeys' (key', value') (by simp)) format
    rw [pairsText, pairsText, List.flatMap_cons, List.flatMap_cons, toList_visitPair,
      toList_visitPair] at h
    simp only [List.append_assoc, List.cons_append, List.append_cancel_left_eq,
      List.cons.injEq, true_and] at h
    obtain ⟨hkeyeq, hvalues⟩ := append_cons_inj_of_first hkey hkey' h
    obtain ⟨rfl, hrest⟩ := formatValue_inj (behind_pairsText format styles tables style kvs)
      (behind_pairsText format styles tables style kvs') (List.append_cancel_left hvalues)
    obtain rfl : key = key' := String.toList_inj.1 (List.append_cancel_right hkeyeq)
    rw [pairsText_inj hstyle hbold (fun kv hkv => hkeys kv (by simp [hkv]))
      (fun kv hkv => hkeys' kv (by simp [hkv])) hrest]

/-- The text of a record in front of its pairs. -/
def recordStart (styles : Styles) (t : Time) (level : Level) (target args : String) : List Char :=
  (styles.dimmed.set ++ t.fmt ++ styles.dimmed.reset ++ " " ++
    (styles.defaultLevelStyle level).set ++ spacePadded 5 level.fmt ++ " " ++
    (styles.bold (styles.defaultLevelStyle level)).set ++ target ++
    (styles.bold (styles.defaultLevelStyle level)).reset ++ (styles.defaultLevelStyle level).set ++
    ": " ++ args).toList

theorem toList_formatRecord (format : LogFormat) (styles : Styles) (tables : CharTables) (t : Time)
    (record : Record) : (formatRecord format styles tables t record).toList =
      recordStart styles t record.level record.target record.args ++
        (pairsText format styles tables (styles.defaultLevelStyle record.level) record.keyValues ++
          ((styles.defaultLevelStyle record.level).reset ++ "\n").toList) := by
  unfold formatRecord recordStart pairsText
  simp [String.toList_append, List.flatMap_def, Function.comp_def]

/-- Records of one level, target and message are written alike at a time, escape sequences included,
only if they are the same: no value is taken for another, for more than one pair, or for a part of
one. -/
theorem formatRecord_inj {format : LogFormat} {styles : Styles} (hstyles : styles.Ansi)
    {tables : CharTables} {t : Time} {record record' : Record}
    (hlevel : record.level = record'.level) (htarget : record.target = record'.target)
    (hargs : record.args = record'.args) (hkeys : ∀ kv ∈ record.keyValues, PlainKey kv.1)
    (hkeys' : ∀ kv ∈ record'.keyValues, PlainKey kv.1)
    (h : formatRecord format styles tables t record =
      formatRecord format styles tables t record') : record = record' := by
  have hlist := congrArg String.toList h
  rw [toList_formatRecord, toList_formatRecord, hlevel, htarget, hargs,
    List.append_cancel_left_eq, List.append_cancel_right_eq] at hlist
  have hansi := hstyles.level record'.level
  have hpairs := pairsText_inj hansi (hstyles.bold _ hansi) hkeys hkeys' hlist
  obtain ⟨level, target, args, kvs⟩ := record
  obtain rfl : kvs = record'.keyValues := hpairs
  obtain rfl : level = record'.level := hlevel
  obtain rfl : target = record'.target := htarget
  obtain rfl : args = record'.args := hargs
  rfl

def greenStyle : Style := ⟨"\x1b[32m", "\x1b[0m", by decide, by decide⟩

def boldStyle : Style := ⟨"\x1b[1m", "\x1b[0m", by decide, by decide⟩

/-- The styles of a record of level `info` on a terminal. -/
def infoStyles : Styles where
  dimmed := ⟨"\x1b[2m", "\x1b[0m", by decide, by decide⟩
  defaultLevelStyle _ := greenStyle
  bold style := ⟨boldStyle.set ++ style.set, boldStyle.reset,
    inline_append.2 ⟨boldStyle.inline_set, style.inline_set⟩, boldStyle.inline_reset⟩

theorem ansi_infoStyles : infoStyles.Ansi where
  level _ := by
    have hgreen : greenStyle.Ansi := by decide
    exact hgreen
  bold style h c hc := by
    have hbold : boldStyle.Ansi := by decide
    simp only [infoStyles, String.toList_append, List.mem_append] at hc
    rcases hc with (hc | hc) | hc
    · exact hbold c (List.mem_append_left _ hc)
    · exact h c (List.mem_append_left _ hc)
    · exact hbold c (List.mem_append_right _ hc)

/-- A value that looks like a pair. -/
theorem formatRecord_inj_forged :
    formatRecord .plain infoStyles asciiTables epoch ⟨.info, "t", "m", [("a", "1 b=2")]⟩ ≠
      formatRecord .plain infoStyles asciiTables epoch
        ⟨.info, "t", "m", [("a", "1"), ("b", "2")]⟩ := by
  have hkeys : ∀ kv ∈ [("a", "1 b=2")], PlainKey kv.1 := by
    unfold PlainKey
    decide
  have hkeys' : ∀ kv ∈ [("a", "1"), ("b", "2")], PlainKey kv.1 := by
    unfold PlainKey
    decide
  intro h
  have heq : (⟨.info, "t", "m", [("a", "1 b=2")]⟩ : Record) =
      ⟨.info, "t", "m", [("a", "1"), ("b", "2")]⟩ :=
    formatRecord_inj ansi_infoStyles rfl rfl rfl hkeys hkeys' h
  exact absurd (Record.mk.inj heq).2.2.2 (by decide)

end AcmeChampion
