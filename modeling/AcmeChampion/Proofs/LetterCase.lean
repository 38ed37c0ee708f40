import AcmeChampion.Proofs.Dependence
import AcmeChampion.Proofs.Encoding
import Mathlib.Data.List.Forall2

/-!
# Letter case

Two messages that differ in the letter case of the name's labels only are read alike, find the same
challenges and are answered alike; each response has the name as its own message spells it.  Only a
standard query that ends before its type and class has no result at all (`sameResult_iff`).
-/

namespace AcmeChampion

open Bytes Text Wire

/-! ## What case does not change -/

section Lowered

variable {ls ls' : List Label}

theorem isAscii_toAsciiLowercase (b : UInt8) : isAscii (toAsciiLowercase b) = isAscii b := by
  have h : ∀ n < 256, isAscii (toAsciiLowercase (UInt8.ofNat n)) = isAscii (UInt8.ofNat n) := by
    decide +kernel
  simpa using h b.toNat b.toNat_lt

theorem exists_lowered_eq (h : ls.map lowered = ls'.map lowered) {l' : Label} (hl' : l' ∈ ls') :
    ∃ l ∈ ls, lowered l = lowered l' := by
  have hmem : lowered l' ∈ ls.map lowered := h ▸ List.mem_map_of_mem hl'
  exact List.mem_map.1 hmem

theorem length_of_lowered (h : ls.map lowered = ls'.map lowered)
    (hls : ∀ l ∈ ls, 0 < l.length ∧ l.length < 64) : ∀ l ∈ ls', 0 < l.length ∧ l.length < 64 := by
  intro l' hl'
  obtain ⟨l, hl, hlow⟩ := exists_lowered_eq h hl'
  have hlen := congrArg List.length hlow
  rw [length_lowered, length_lowered] at hlen
  exact hlen ▸ hls l hl

theorem length_nameOctets_lowered : ∀ ls : List Label,
    (nameOctets (ls.map lowered)).length = (nameOctets ls).length
  | [] => rfl
  | l :: ls => by
    have ih := length_nameOctets_lowered ls
    simp only [List.map_cons, nameOctets_cons, List.length_cons, List.length_append,
      length_lowered, ih]

theorem length_nameOctets_congr (h : ls.map lowered = ls'.map lowered) :
    (nameOctets ls').length = (nameOctets ls).length := by
  rw [← length_nameOctets_lowered, ← h, length_nameOctets_lowered]

theorem Accepted.of_lowered (h : ls.map lowered = ls'.map lowered) (hacc : Accepted ls) :
    Accepted ls' := by
  refine ⟨fun l' hl' b hb => ?_, length_nameOctets_congr h ▸ hacc.le_255⟩
  obtain ⟨l, hl, hlow⟩ := exists_lowered_eq h hl'
  have hmem : toAsciiLowercase b ∈ lowered l := hlow ▸ List.mem_map_of_mem hb
  obtain ⟨b', hb', heq⟩ := List.mem_map.1 hmem
  rw [← isAscii_toAsciiLowercase, ← heq, isAscii_toAsciiLowercase]
  exact hacc.ascii l hl b' hb'

theorem registered_congr (h : ls.map lowered = ls'.map lowered) (cs : Challenges) :
    cs.registered ls' = cs.registered ls := by
  unfold Challenges.registered eqIgnoreAsciiCase
  rw [lowered_dotted, lowered_dotted, h]

end Lowered

/-! ## Responses alike -/

/-- The data of two answers of one type to the names. -/
def SameValue (ls ls' : List Label) (t : ValidQueryType) (value value' : List UInt8) : Prop :=
  match t with
  | .txt | .a | .aaaa => value' = value
  | .ns => value = nameOctets ls.tail ∧ value' = nameOctets ls'.tail
  | .soa => ∃ rest, value = nameOctets ls ++ nameOctets ls ++ rest ∧
      value' = nameOctets ls' ++ nameOctets ls' ++ rest

/-- The answers have the names as their owners, and between owner and data the same ten octets of
type, class, TTL and length. -/
structure SameAnswer (ls ls' : List Label) (a a' : Answer) : Prop where
  queryType : a'.queryType = a.queryType
  value : SameValue ls ls' a.queryType a.value a'.value
  length : a'.value.length = a.value.length
  toBytes : ∃ fields : List UInt8, fields.length = 10 ∧
    a.toBytes = nameOctets ls ++ (fields ++ a.value) ∧
    a'.toBytes = nameOctets ls' ++ (fields ++ a'.value)

/-- The responses have the same header, and each has its own name in the question, if there is one,
and in its answers. -/
structure SameResponse (ls ls' : List Label) (r r' : Response) : Prop where
  rcode : r'.rcode = r.rcode
  header : r'.toBytes.take QueryHeader.length = r.toBytes.take QueryHeader.length
  query : (r.query = none ∧ r'.query = none) ∨ ∃ q q', r.query = some q ∧ r'.query = some q' ∧
    q.queryNameBytes = nameOctets ls ∧ q'.queryNameBytes = nameOctets ls' ∧
    q'.queryType = q.queryType ∧ q'.queryClass = q.queryClass
  answers : List.Forall₂ (SameAnswer ls ls') r.answers r'.answers
  length : r'.toBytes.length = r.toBytes.length

section Same

variable {ls ls' : List Label} (h : ls.map lowered = ls'.map lowered)

include h

theorem length_of_sameValue {t : ValidQueryType} {value value' : List UInt8}
    (hv : SameValue ls ls' t value value') : value'.length = value.length := by
  have hname := length_nameOctets_congr h
  have htail : ls.tail.map lowered = ls'.tail.map lowered := by
    rw [List.map_tail, List.map_tail, h]
  cases t with
  | a | aaaa | txt => exact congrArg List.length hv
  | ns =>
    obtain ⟨rfl, rfl⟩ := hv
    exact length_nameOctets_congr htail
  | soa =>
    obtain ⟨rest, rfl, rfl⟩ := hv
    simp only [List.length_append, hname]

theorem sameAnswer {t : ValidQueryType} {value value' : List UInt8}
    (hv : SameValue ls ls' t value value') :
    SameAnswer ls ls' ⟨nameOctets ls, t, value⟩ ⟨nameOctets ls', t, value'⟩ := by
  have hlen := length_of_sameValue h hv
  refine ⟨rfl, hv, hlen, u16ToBeBytes t.toU16 ++ u16ToBeBytes inClass ++ u32ToBeBytes answerTtl ++
    u16ToBeBytes (UInt16.ofNat value.length), by simp [u16ToBeBytes, u32ToBeBytes], ?_, ?_⟩
  · simp only [Answer.toBytes, List.append_assoc]
  · simp only [Answer.toBytes, List.append_assoc, hlen]

theorem sameValue_answerData (t : ValidQueryType) (ips : ServerIps) (cs : Challenges) :
    List.Forall₂ (SameValue ls ls' t) (answerData ls t ips cs) (answerData ls' t ips cs) := by
  unfold answerData
  rw [registered_congr h cs]
  cases t with
  | a | aaaa | txt => exact List.forall₂_same.2 fun _ _ => rfl
  | ns =>
    simp only
    split_ifs
    · exact .nil
    · exact .cons ⟨rfl, rfl⟩ .nil
  | soa =>
    simp only [List.append_assoc]
    split_ifs
    · exact .nil
    · exact .cons ⟨_, by rw [List.append_assoc], by rw [List.append_assoc]⟩ .nil

theorem sameAnswer_answersFor (t : ValidQueryType) (ips : ServerIps) (cs : Challenges) :
    List.Forall₂ (SameAnswer ls ls') (answersFor ls t ips cs) (answersFor ls' t ips cs) := by
  unfold answersFor
  rw [List.forall₂_map_left_iff, List.forall₂_map_right_iff]
  exact (sameValue_answerData h t ips cs).imp fun _ _ => sameAnswer h

theorem sameAnswer_outcome (t : UInt16) (ips : ServerIps) (cs : Challenges) :
    (outcome ls' t ips cs).1 = (outcome ls t ips cs).1 ∧
      List.Forall₂ (SameAnswer ls ls') (outcome ls t ips cs).2 (outcome ls' t ips cs).2 := by
  unfold outcome
  rw [startsAcmeChallenge_congr h]
  rcases validQueryType t with _ | t'
  · exact ⟨rfl, .nil⟩
  have hsame := sameAnswer_answersFor h t' ips cs
  have hnil : answersFor ls t' ips cs = [] ↔ answersFor ls' t' ips cs = [] := by
    rw [← List.length_eq_zero_iff, hsame.length_eq, List.length_eq_zero_iff]
  simp only [hnil]
  split_ifs
  · exact ⟨rfl, .nil⟩
  · exact ⟨rfl, hsame⟩
  · exact ⟨rfl, .nil⟩

end Same

/-! ## The two runs -/

/-- Both messages have no response, or both have one. -/
inductive SameResult (ls ls' : List Label) :
    Checked (Option (List UInt8)) → Checked (Option (List UInt8)) → Prop
  | silent : SameResult ls ls' (.ok none) (.ok none)
  | response {r r' : Response} (h : SameResponse ls ls' r r') :
    SameResult ls ls' (.ok (some r.toBytes)) (.ok (some r'.toBytes))

/-- The messages are the same but for the letter case of the labels of an uncompressed name behind
the header. -/
structure CaseVariant (ls ls' : List Label) (m m' : List UInt8) : Prop where
  lowered : ls.map lowered = ls'.map lowered
  length_lt : ∀ l ∈ ls, 0 < l.length ∧ l.length < 64
  octets : ∃ pre rest : List UInt8, pre.length = QueryHeader.length ∧
    m = pre ++ (nameOctets ls ++ rest) ∧ m' = pre ++ (nameOctets ls' ++ rest)

section Runs

variable {ls ls' : List Label} {m m' : List UInt8}

theorem sameResponse_of_bare {r : Response} (h : Bare m r) : SameResponse ls ls' r r := by
  refine ⟨rfl, rfl, .inl ⟨h.query, h.query⟩, ?_, rfl⟩
  rw [h.answers]
  exact .nil

/-- Messages that are handled alike, have no accepted question and do not panic. -/
theorem sameResult_of_eq (hresp : responseForMessage m = responseForMessage m')
    (hans : ¬ ∃ ls t c, Answerable m ls t c) (hcut : ¬ (StandardQuery m ∧ CutShort m))
    (ips : ServerIps) (cs : Challenges) :
    SameResult ls ls' (handleRequest m ips cs) (handleRequest m' ips cs) := by
  obtain ⟨o, ho, hbare⟩ := buildResponse_of_not_answerable hans hcut
  rw [← handleRequest_of_responseForMessage hresp, handleRequest_eq, ho]
  rcases o with _ | r
  · exact .silent
  · exact .response (sameResponse_of_bare (hbare r rfl))

theorem length_flatMap_of_sameAnswer (hname : (nameOctets ls').length = (nameOctets ls).length)
    {as as' : List Answer} (h : List.Forall₂ (SameAnswer ls ls') as as') :
    (as'.flatMap Answer.toBytes).length = (as.flatMap Answer.toBytes).length := by
  induction h with
  | nil => rfl
  | cons ha _ ih =>
    obtain ⟨fields, -, hbytes, hbytes'⟩ := ha.toBytes
    have hvalue := ha.length
    simp only [List.flatMap_cons, List.length_append, hbytes, hbytes']
    omega

theorem sameResponse_of_echoes {r r' : Response} {q q' : Query}
    (hlow : ls.map lowered = ls'.map lowered) (hsame : SameHeader m m') (hechoes : Echoes m r)
    (hechoes' : Echoes m' r') (hrcode : r'.rcode = r.rcode) (hquery : r.query = some q)
    (hquery' : r'.query = some q') (hq : q.Names ls) (hq' : q'.Names ls')
    (htype : q'.queryType = q.queryType) (hclass : q'.queryClass = q.queryClass)
    (hanswers : List.Forall₂ (SameAnswer ls ls') r.answers r'.answers) :
    SameResponse ls ls' r r' := by
  obtain ⟨hid, hrd⟩ := hechoes.congr hechoes' hsame
  have hname := length_nameOctets_congr hlow
  have hflags : r'.flags = r.flags := by
    unfold Response.flags
    rw [hrd, hrcode]
  have hbytes : r'.queryBytes.length = r.queryBytes.length := by
    simp [Response.queryBytes, hquery, hquery', Query.toBytes, hq.bytes, hq'.bytes, hname,
      u16ToBeBytes]
  refine ⟨hrcode, ?_, .inr ⟨q, q', hquery, hquery', hq.bytes, hq'.bytes, htype, hclass⟩, hanswers,
    ?_⟩
  · rw [Response.take_toBytes, Response.take_toBytes, hid, hflags, hquery, hquery',
      hanswers.length_eq]
    rfl
  · rw [Response.length_toBytes_flatMap, Response.length_toBytes_flatMap, hbytes,
      length_flatMap_of_sameAnswer hname hanswers]

theorem sameResult_of_answerable {t c : UInt16} (hlow : ls.map lowered = ls'.map lowered)
    (hsame : SameHeader m m') (h : Answerable m ls t c) (h' : Answerable m' ls' t c)
    (ips : ServerIps) (cs : Challenges) :
    SameResult ls ls' (handleRequest m ips cs) (handleRequest m' ips cs) := by
  obtain ⟨r, q, hr, hechoes, hquery, hq, htype, hclass, hout⟩ :=
    buildResponse_of_answerable ips cs h
  obtain ⟨r', q', hr', hechoes', hquery', hq', htype', hclass', hout'⟩ :=
    buildResponse_of_answerable ips cs h'
  obtain ⟨hrcode, hanswers⟩ := sameAnswer_outcome hlow t ips cs
  rw [← hout, ← hout'] at hrcode hanswers
  rw [handleRequest_eq_some_iff.2 ⟨r, hr, rfl⟩, handleRequest_eq_some_iff.2 ⟨r', hr', rfl⟩]
  exact .response (sameResponse_of_echoes hlow hsame hechoes hechoes' hrcode hquery hquery' hq hq'
    (htype'.trans htype.symm) (hclass'.trans hclass.symm) hanswers)

theorem error_of_not_accepted {t c : UInt16} (h : Asks m ls t c) (hacc : ¬ Accepted ls) :
    ∃ e, Query.fromBytes m QueryHeader.length = .ok (.error e) := by
  obtain ⟨end', heq⟩ := Query.fromBytes_of_asks h
  rcases hloop : nameLoop (ls ++ [[]]) [] "" with err | ⟨bs, s⟩
  · rw [hloop] at heq
    exact ⟨_, heq⟩
  · exact absurd ((nameLoop_root_iff h.ne_nil).1 hloop).1 hacc

theorem sameResult_of_asks {t c : UInt16} (hlow : ls.map lowered = ls'.map lowered)
    (hsame : SameHeader m m') (hstd : StandardQuery m) (hstd' : StandardQuery m')
    (hasks : Asks m ls t c) (hasks' : Asks m' ls' t c) (ips : ServerIps) (cs : Challenges) :
    SameResult ls ls' (handleRequest m ips cs) (handleRequest m' ips cs) := by
  by_cases hacc : Accepted ls
  · exact sameResult_of_answerable hlow hsame ⟨hstd, hasks, hacc⟩
      ⟨hstd', hasks', hacc.of_lowered hlow⟩ ips cs
  · obtain ⟨e, he⟩ := error_of_not_accepted hasks hacc
    obtain ⟨e', he'⟩ := error_of_not_accepted hasks' fun h => hacc (h.of_lowered hlow.symm)
    have hheader := QueryHeader.fromBytes_congr hsame hstd.length_le hstd'.length_le
    refine sameResult_of_eq (responseForMessage_of_error hheader he he') ?_ ?_ ips cs
    · rintro ⟨ks, t', c', hans⟩
      obtain ⟨rfl, -⟩ := hasks.unique hans.asks
      exact hacc hans.accepted
    · rintro ⟨-, hcut⟩
      obtain ⟨p, hp⟩ := Query.fromBytes_error_iff.2 hcut
      rw [he] at hp
      cases hp

theorem sameResult_of_rest {pre rest : List UInt8} (hlow : ls.map lowered = ls'.map lowered)
    (hls : ∀ l ∈ ls, 0 < l.length ∧ l.length < 64) (hpre : pre.length = QueryHeader.length)
    (hrest : StandardQuery (pre ++ (nameOctets ls ++ rest)) → 4 ≤ rest.length) (ips : ServerIps)
    (cs : Challenges) :
    SameResult ls ls' (handleRequest (pre ++ (nameOctets ls ++ rest)) ips cs)
      (handleRequest (pre ++ (nameOctets ls' ++ rest)) ips cs) := by
  have hls' := length_of_lowered hlow hls
  have hsame := sameHeader_append (nameOctets ls ++ rest) (nameOctets ls' ++ rest) hpre
  have hlen : ∀ bs : List UInt8, QueryHeader.length ≤ (pre ++ bs).length := by
    intro bs
    rw [List.length_append]
    omega
  have hheader := QueryHeader.fromBytes_congr hsame (hlen _) (hlen _)
  by_cases hstd : StandardQuery (pre ++ (nameOctets ls ++ rest))
  · obtain ⟨t, c, post, rfl⟩ := exists_type_class (hrest hstd)
    exact sameResult_of_asks hlow hsame hstd (standardQuery_congr hheader hstd (hlen _))
      (asks_question t c post hls hpre) (asks_question t c post hls' hpre) ips cs
  · refine sameResult_of_eq (responseForMessage_of_header hstd hheader) ?_ (fun h => hstd h.1) ips
      cs
    rintro ⟨ks, t, c, hans⟩
    exact hstd hans.standard

/-- Messages that differ in the letter case of an uncompressed name only have the same result, which
is no response or responses that differ in the letter case of the name only, just when they are no
standard queries or have four octets, a type and a class, behind the name; else both panic. -/
theorem sameResult_iff (h : CaseVariant ls ls' m m') (ips : ServerIps) (cs : Challenges) :
    SameResult ls ls' (handleRequest m ips cs) (handleRequest m' ips cs) ↔
      (StandardQuery m → QueryHeader.length + (nameOctets ls).length + 4 ≤ m.length) := by
  obtain ⟨hlow, hls, pre, rest, hpre, rfl, rfl⟩ := h
  have hlength : (pre ++ (nameOctets ls ++ rest)).length =
      QueryHeader.length + (nameOctets ls).length + rest.length := by
    rw [List.length_append, List.length_append, hpre, Nat.add_assoc]
  rw [hlength, Nat.add_le_add_iff_left]
  constructor
  · intro hsame hstd
    by_contra hlt
    obtain ⟨p, hp⟩ :=
      panic_of_cutShort hstd (cutShort_name rest hls hpre (Nat.not_le.1 hlt)) ips cs
    rw [hp] at hsame
    cases hsame
  · intro hrest
    exact sameResult_of_rest hlow hls hpre hrest ips cs

/-- Two spellings of a registered name. -/
theorem sameResult_iff_acme :
    SameResult [acmeChallengeLabel] [utf8 "_ACME-Challenge"]
      (handleRequest ([0, 0, 0, 0, 0, 1, 0, 0, 0, 0, 0, 0] ++
        (nameOctets [acmeChallengeLabel] ++ [0, 16, 0, 1])) ⟨none, none⟩
          ⟨[⟨"d", "_acme-challenge", "v"⟩]⟩)
      (handleRequest ([0, 0, 0, 0, 0, 1, 0, 0, 0, 0, 0, 0] ++
        (nameOctets [utf8 "_ACME-Challenge"] ++ [0, 16, 0, 1])) ⟨none, none⟩
          ⟨[⟨"d", "_acme-challenge", "v"⟩]⟩) :=
  (sameResult_iff ⟨by decide +kernel, by decide +kernel, _, _, rfl, rfl, rfl⟩ _ _).2
    fun _ => by decide +kernel

/-- The two spellings with nothing behind them. -/
theorem not_sameResult_cutShort : ¬ ∀ ls ls' m m', CaseVariant ls ls' m m' →
    ∀ ips cs, SameResult ls ls' (handleRequest m ips cs) (handleRequest m' ips cs) := by
  intro h
  have hvariant : CaseVariant [acmeChallengeLabel] [utf8 "_ACME-Challenge"]
      ([0, 0, 0, 0, 0, 1, 0, 0, 0, 0, 0, 0] ++ (nameOctets [acmeChallengeLabel] ++ []))
      ([0, 0, 0, 0, 0, 1, 0, 0, 0, 0, 0, 0] ++ (nameOctets [utf8 "_ACME-Challenge"] ++ [])) :=
    ⟨by decide +kernel, by decide +kernel, _, _, rfl, rfl, rfl⟩
  have hpanic : handleRequest ([0, 0, 0, 0, 0, 1, 0, 0, 0, 0, 0, 0] ++
      (nameOctets [acmeChallengeLabel] ++ [])) ⟨none, none⟩ Challenges.new =
        .error (.indexOutOfBounds 29 29) := by decide +kernel
  have hsame := h _ _ _ _ hvariant ⟨none, none⟩ Challenges.new
  rw [hpanic] at hsame
  cases hsame

end Runs

end AcmeChampion
