import AcmeChampion.DnsHandler
import AcmeChampion.Logger

/-!
# Which records are one log line

Escaping writes a line feed out, but a value is escaped only when it holds a space, a quote or a
backslash.  So a record whose other texts are inline is written as one line exactly when each value
with a line feed holds one of these too (`oneLine_formatRecord_iff`).
-/

namespace AcmeChampion

open Lines Logger

theorem Logger.Level.inline_fmt (level : Level) : Inline level.fmt := by
  cases level <;> decide

theorem inline_formatValue_iff (tables : CharTables) (value : String) :
    Inline (formatValue tables value) ↔ (Inline value ∨ ∃ c ∈ needsEscape, c ∈ value.toList) := by
  have hany : value.toList.any (needsEscape.contains ·) = true ↔
      ∃ c ∈ needsEscape, c ∈ value.toList := by
    simp only [List.any_eq_true, List.contains_iff_mem]
    constructor
    · rintro ⟨c, hvalue, hneeds⟩
      exact ⟨c, hneeds, hvalue⟩
    · rintro ⟨c, hneeds, hvalue⟩
      exact ⟨c, hvalue, hneeds⟩
  have hquote : Inline "\"" := by decide
  unfold formatValue
  rw [← hany]
  split_ifs with hneeds
  · refine iff_of_true (inline_append.2 ⟨inline_append.2 ⟨hquote, ?_⟩, hquote⟩) (.inr hneeds)
    exact inline_escapeDebug tables value
  · exact (or_iff_left hneeds).symm

theorem inline_visitPair_iff (format : LogFormat) (styles : Styles) (tables : CharTables)
    (style : Style) {key : String} (hkey : Inline key) (value : String) :
    Inline (visitPair format styles tables style key value) ↔
      (Inline value ∨ ∃ c ∈ needsEscape, c ∈ value.toList) := by
  have hset := (styles.bold style).inline_set
  have hreset := (styles.bold style).inline_reset
  have hstyle := style.inline_set
  unfold visitPair
  rw [inline_append, inline_formatValue_iff]
  refine and_iff_right ?_
  cases format with
  | pretty =>
    simp only [inline_append, hset, hkey, hreset, hstyle, and_true]
    decide
  | plain =>
    simp only [inline_append, hset, hkey, hreset, hstyle, and_true]
    decide

theorem oneLine_iff_pairs (format : LogFormat) (styles : Styles) (tables : CharTables) (t : Time)
    {record : Record} (htarget : Inline record.target) (hargs : Inline record.args) :
    OneLine (formatRecord format styles tables t record) ↔
      ∀ kv ∈ record.keyValues, Inline (visitPair format styles tables
        (styles.defaultLevelStyle record.level) kv.1 kv.2) := by
  have hdimmed := styles.dimmed.inline_set
  have hdimmed' := styles.dimmed.inline_reset
  have hlevel := (styles.defaultLevelStyle record.level).inline_set
  have hlevel' := (styles.defaultLevelStyle record.level).inline_reset
  have hbold := (styles.bold (styles.defaultLevelStyle record.level)).inline_set
  have hbold' := (styles.bold (styles.defaultLevelStyle record.level)).inline_reset
  have hname := @inline_spacePadded 5 _ record.level.inline_fmt
  have hspace : Inline " " := by decide
  have hcolon : Inline ": " := by decide
  unfold formatRecord
  simp only [oneLine_append_iff, inline_append, inline_join, hdimmed, hdimmed', hlevel, hlevel',
    hbold, hbold', hname, hspace, hcolon, htarget, hargs, t.inline_fmt, true_and, and_true,
    List.mem_map, forall_exists_index, and_imp, forall_apply_eq_imp_iff₂]

/-- With a target, a message and keys on one line, the record is written as one line exactly when
every value that holds a line feed also holds a character that makes it escaped. -/
theorem oneLine_formatRecord_iff (format : LogFormat) (styles : Styles) (tables : CharTables)
    (t : Time) {record : Record} (htarget : Inline record.target) (hargs : Inline record.args)
    (hkeys : ∀ kv ∈ record.keyValues, Inline kv.1) :
    OneLine (formatRecord format styles tables t record) ↔
      ∀ kv ∈ record.keyValues, '\n' ∈ kv.2.toList → ∃ c ∈ needsEscape, c ∈ kv.2.toList := by
  rw [oneLine_iff_pairs format styles tables t htarget hargs]
  refine forall₂_congr fun kv hkv => ?_
  rw [inline_visitPair_iff format styles tables _ (hkeys kv hkv)]
  exact Decidable.imp_iff_not_or.symm

def noStyle : Style := ⟨"", "", by decide, by decide⟩

def noStyles : Styles := ⟨noStyle, fun _ => noStyle, fun _ => noStyle⟩

/-- The tables restricted to ASCII. -/
def asciiTables : CharTables := ⟨fun c => 32 ≤ c.toNat ∧ c.toNat < 127, fun _ => false⟩

def epoch : Time := ⟨1970, 1, 1, 0, 0, 0, 0⟩

theorem oneLine_formatRecord_quoted :
    OneLine (formatRecord .plain noStyles asciiTables epoch
      ⟨.info, "target", "message", [("key", "a \nb")]⟩) := by
  refine (oneLine_formatRecord_iff .plain noStyles asciiTables epoch (by decide) (by decide)
    ?_).2 ?_
  · intro kv hkv
    obtain rfl := List.mem_singleton.1 hkv
    decide
  · intro kv hkv _
    obtain rfl := List.mem_singleton.1 hkv
    exact ⟨' ', by decide, by decide⟩

/-! ## The line of an answered query -/

theorem inline_debug (rcode : ResponseCode) (queryType : ValidQueryType) :
    Inline rcode.debug ∧ Inline queryType.debug := by
  cases rcode <;> cases queryType <;> decide

theorem inline_logAnswered (response : Response) (queryType : ValidQueryType)
    (challengeKey : String) : Inline (logAnswered response queryType challengeKey).target ∧
      Inline (logAnswered response queryType challengeKey).args ∧
      ∀ kv ∈ (logAnswered response queryType challengeKey).keyValues, Inline kv.1 := by
  have htarget : Inline "acme_champion::dns_handler" := by decide
  have hargs : Inline "answered DNS query" := by decide
  have hkeys : Inline "id" ∧ Inline "challenge_name" ∧ Inline "rcode" ∧ Inline "type" := by decide
  unfold logAnswered
  refine ⟨htarget, hargs, ?_⟩
  simpa only [List.forall_mem_cons, List.not_mem_nil, false_implies, implies_true, and_true]
    using hkeys

/-- The line logged for an answered query is forged exactly by a key with a line feed and none of
the characters that make it escaped. -/
theorem oneLine_logAnswered_iff (format : LogFormat) (styles : Styles) (tables : CharTables)
    (t : Time) (response : Response) (queryType : ValidQueryType) (challengeKey : String) :
    OneLine (formatRecord format styles tables t (logAnswered response queryType challengeKey)) ↔
      (Inline challengeKey ∨ ∃ c ∈ needsEscape, c ∈ challengeKey.toList) := by
  obtain ⟨hrcode, htype⟩ := inline_debug response.rcode queryType
  have hid := inline_repr response.transactionId.toNat
  obtain ⟨htarget, hargs, hkeys⟩ := inline_logAnswered response queryType challengeKey
  rw [oneLine_iff_pairs format styles tables t htarget hargs]
  have hpairs := forall₂_congr fun kv hkv =>
    inline_visitPair_iff format styles tables (styles.defaultLevelStyle .info) (hkeys kv hkv) kv.2
  refine hpairs.trans ?_
  simp only [logAnswered, List.forall_mem_cons, List.not_mem_nil, false_implies, implies_true,
    and_true, hid, hrcode, htype, true_or, true_and]

/-- A TXT query for the labels `_acme-challenge` and `a`, line feed, `b`. -/
def lineFeedQuery : List UInt8 :=
  [0, 0, 0, 0, 0, 1, 0, 0, 0, 0, 0, 0] ++ 15 :: acmeChallengeLabel ++
    [3, 97, 10, 98, 0, 0, 16, 0, 1]

def lineFeedQuestion : Query where
  queryNameBytes := 15 :: acmeChallengeLabel ++ [3, 97, 10, 98, 0]
  queryNameString := "_acme-challenge.a\nb"
  queryType := txtType
  queryClass := inClass
  isAcmeChallenge := true

/-- The response of an empty store. -/
def lineFeedResponse : Response where
  transactionId := 0
  recursionDesired := false
  rcode := .nxDomain
  query := some lineFeedQuestion
  answers := []

/-- The query is looked up, and what is logged of its response takes two lines. -/
theorem not_oneLine_lineFeedQuery : ∃ (response : Response) (name : List UInt8) (key : String),
    responseForMessage lineFeedQuery = .ok (.process response name .txt key) ∧
      buildResponse lineFeedQuery ⟨none, none⟩ Challenges.new = .ok (some lineFeedResponse) ∧
      Inline (logAnswered lineFeedResponse .txt key).target ∧
      Inline (logAnswered lineFeedResponse .txt key).args ∧
      (∀ kv ∈ (logAnswered lineFeedResponse .txt key).keyValues, Inline kv.1) ∧
      ¬ OneLine (formatRecord .plain noStyles asciiTables epoch
        (logAnswered lineFeedResponse .txt key)) := by
  obtain ⟨htarget, hargs, hkeys⟩ :=
    inline_logAnswered lineFeedResponse .txt lineFeedQuestion.queryNameString
  refine ⟨{ lineFeedResponse with rcode := .noError }, lineFeedQuestion.queryNameBytes,
    lineFeedQuestion.queryNameString, by decide +kernel, by decide +kernel, htarget, hargs, hkeys,
    ?_⟩
  rw [oneLine_logAnswered_iff]
  rintro (hinline | ⟨c, hneeds, hmem⟩)
  · exact absurd hinline (by decide)
  · simp only [needsEscape, List.mem_cons, List.not_mem_nil, or_false] at hneeds
    rcases hneeds with rfl | rfl | rfl <;> exact absurd hmem (by decide)

end AcmeChampion
