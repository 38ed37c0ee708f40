import AcmeChampion.DnsHandler
import AcmeChampion.Proofs.Query

/-!
# What a message is answered with

A standard query whose question is whole and accepted gets the answers that the store and the
addresses hold for its name and type (`buildResponse_of_answerable`), any other message nothing or
a bare header (`buildResponse_of_not_answerable`), and only a question that the end of the message
cuts short panics (`handleRequest_ok_iff`).
-/

namespace AcmeChampion

open Bytes Text Wire

/-- The header is that of a standard query with one question. -/
structure StandardQuery (m : List UInt8) : Prop where
  length_le : QueryHeader.length ≤ m.length
  flags : ∃ f, m[2]? = some f ∧ f.toNat < 8
  questions_hi : m[4]? = some 0
  questions_lo : m[5]? = some 1

/-- A standard query for the name of the labels. -/
structure Answerable (m : List UInt8) (ls : List Label) (queryType queryClass : UInt16) :
    Prop where
  standard : StandardQuery m
  asks : Asks m ls queryType queryClass
  accepted : Accepted ls

/-! ## The header -/

theorem flags_lt_iff (f : UInt8) :
    (f &&& 0b10000000 = 0 ∧ (f >>> 3) &&& 0b00001111 = 0) ↔ f.toNat < 8 := by
  have h : ∀ n < 256, (UInt8.ofNat n &&& 0b10000000 = 0 ∧
      (UInt8.ofNat n >>> 3) &&& 0b00001111 = 0) ↔ n < 8 := by decide +kernel
  simpa using h f.toNat f.toNat_lt

theorem fromBigEndian_eq_one (hi lo : UInt8) :
    UInt16.ofNat (fromBigEndian [hi, lo]) = 1 ↔ hi = 0 ∧ lo = 1 := by
  have hhi := hi.toNat_lt
  have hlo := lo.toNat_lt
  rw [← UInt16.toNat_inj, ← UInt8.toNat_inj, ← UInt8.toNat_inj, UInt16.toNat_ofNat',
    fromBigEndian_pair]
  simp only [UInt16.reduceToNat, UInt8.reduceToNat]
  omega

theorem QueryHeader.fromBytes_of_lt {m : List UInt8} (h : m.length < QueryHeader.length) :
    fromBytes m = .ok (.error .tooShort) := by
  have hlt : m.length < 12 := h
  simp [fromBytes, hlt, pure, Except.pure]

theorem QueryHeader.fromBytes_eq {m : List UInt8} (h : QueryHeader.length ≤ m.length) {f : UInt8}
    {id n : UInt16} (hid : u16At m 0 = .ok id) (hf : m[2]? = some f) (hn : u16At m 4 = .ok n) :
    fromBytes m = .ok (.ok {
      transactionId := id
      messageType := if f &&& 0b10000000 = 0 then .query else .reply
      recursionDesired := f &&& 0b00000001 = 1
      opcode :=
        if (f >>> 3) &&& 0b00001111 = 0 then .standard
        else if (f >>> 3) &&& 0b00001111 = 1 then .inverse
        else if (f >>> 3) &&& 0b00001111 = 2 then .status
        else .other
      numQuestions := n }) := by
  have hlen : ¬ m.length < 12 := Nat.not_lt.2 h
  unfold fromBytes
  rw [if_neg hlen, hid, index_of_getElem? hf, hn]
  rfl

/-- A message of 12 octets has the header's fields. -/
theorem header_fields {m : List UInt8} (h : QueryHeader.length ≤ m.length) :
    ∃ id f n, u16At m 0 = .ok id ∧ m[2]? = some f ∧ u16At m 4 = .ok n := by
  have hlen : 12 ≤ m.length := h
  obtain ⟨id, hid⟩ := (@u16At_ok_iff m 0).2 (by omega)
  obtain ⟨n, hn⟩ := (@u16At_ok_iff m 4).2 (by omega)
  exact ⟨id, _, n, hid, List.getElem?_eq_getElem (by omega), hn⟩

theorem QueryHeader.fromBytes_of_le {m : List UInt8} (h : QueryHeader.length ≤ m.length) :
    ∃ header, fromBytes m = .ok (.ok header) ∧ u16At m 0 = .ok header.transactionId ∧
      (∃ f, m[2]? = some f ∧ header.recursionDesired = decide (f &&& 0b00000001 = 1)) ∧
      ((header.messageType = .query ∧ header.opcode = .standard ∧ header.numQuestions = 1) ↔
        StandardQuery m) := by
  have hlen : 12 ≤ m.length := h
  obtain ⟨id, f, n, hid, hf, hn⟩ := header_fields h
  obtain ⟨q0, hq0⟩ : ∃ q, m[4]? = some q := ⟨_, List.getElem?_eq_getElem (by omega)⟩
  obtain ⟨q1, hq1⟩ : ∃ q, m[5]? = some q := ⟨_, List.getElem?_eq_getElem (by omega)⟩
  refine ⟨_, fromBytes_eq h hid hf hn, hid, ⟨f, hf, rfl⟩, ?_⟩
  rw [u16At_of_getElem? hq0 hq1, Except.ok.injEq] at hn
  have hstd : StandardQuery m ↔ f.toNat < 8 ∧ q0 = 0 ∧ q1 = 1 := by
    refine ⟨fun ⟨_, ⟨g, hg, hlt⟩, h4, h5⟩ => ?_, fun ⟨hlt, h4, h5⟩ => ⟨h, ⟨f, hf, hlt⟩, ?_, ?_⟩⟩
    · simp_all
    · rw [hq0, h4]
    · rw [hq1, h5]
  rw [hstd, ← flags_lt_iff, ← fromBigEndian_eq_one, hn, and_assoc]
  refine and_congr (by simp) (and_congr ?_ Iff.rfl)
  split_ifs <;> simp_all

/-! ## Answers -/

def Challenges.registered (cs : Challenges) (ls : List Label) : List Challenge :=
  cs.list.filter fun c => eqIgnoreAsciiCase (utf8 c.name) (dotted ls)

/-- The data of the answers that the store and the addresses hold for the name and type. -/
def answerData (ls : List Label) (queryType : ValidQueryType) (serverIps : ServerIps)
    (challenges : Challenges) : List (List UInt8) :=
  match queryType with
  | .a => serverIps.v4.toList.map fun ip => bigEndian 4 ip.toNat
  | .aaaa => serverIps.v6.toList.map fun ip => bigEndian 16 ip.toNat
  | .txt => (challenges.registered ls).map fun c =>
      UInt8.ofNat (utf8 c.value).length :: utf8 c.value
  | .ns => if challenges.registered ls = [] then [] else [nameOctets ls.tail]
  | .soa =>
    if challenges.registered ls = [] then []
    else [nameOctets ls ++ nameOctets ls ++ u32ToBeBytes 1 ++ u32ToBeBytes 10800 ++
      u32ToBeBytes 3600 ++ u32ToBeBytes 604800 ++ u32ToBeBytes 30]

def answersFor (ls : List Label) (queryType : ValidQueryType) (serverIps : ServerIps)
    (challenges : Challenges) : List Answer :=
  (answerData ls queryType serverIps challenges).map fun value =>
    { name := nameOctets ls, queryType, value }

section Answers

variable {ls : List Label} {challengeKey : String} (cs : Challenges)

theorem named_eq (hkey : utf8 challengeKey = dotted ls) :
    cs.named challengeKey = (cs.registered ls).map (·.value) := by
  simp [Challenges.named, Challenges.registered, Challenge.matches, hkey]

theorem any_eq (hkey : utf8 challengeKey = dotted ls) :
    cs.any challengeKey = true ↔ cs.registered ls ≠ [] := by
  simp [Challenges.any, Challenges.registered, Challenge.matches, hkey]

theorem foldl_addTxtAnswer (name : List UInt8) : ∀ (values : List String) (r : Response),
    values.foldl (·.addTxtAnswer name ·) r = { r with answers := r.answers ++ values.map fun v =>
      { name, queryType := .txt, value := UInt8.ofNat (utf8 v).length :: utf8 v } }
  | [], r => by simp
  | v :: values, r => by
    rw [List.foldl_cons, foldl_addTxtAnswer name values]
    simp [Response.addTxtAnswer, Response.push]

theorem length_of_startsAcmeChallenge {l : Label} {ls : List Label}
    (h : Query.startsAcmeChallenge (l :: ls)) : l.length = 15 := by
  have hl := congrArg List.length (eqIgnoreAsciiCase_iff.1 h)
  have hacme : acmeChallengeLabel.length = 15 := by decide +kernel
  rwa [length_lowered, length_lowered, hacme] at hl

theorem addNsAnswer_eq (h : Query.startsAcmeChallenge ls) (r : Response) :
    r.addNsAnswer (nameOctets ls) = .ok (r.push
      { name := nameOctets ls, queryType := .ns, value := nameOctets ls.tail }) := by
  match ls, h with
  | l :: ls, h =>
    have hl := length_of_startsAcmeChallenge h
    have h0 : (nameOctets (l :: ls))[0]? = some 15 := by simp [nameOctets_cons, hl]
    have hlen : 16 ≤ (nameOctets (l :: ls)).length := by simp [nameOctets_cons, hl]
    have hdrop : (nameOctets (l :: ls)).drop 16 = nameOctets ls := by
      rw [nameOctets_cons, List.drop_succ_cons, ← hl, List.drop_left]
    have hslice := slice_of_le hlen (Nat.le_refl _)
    rw [List.take_length, hdrop] at hslice
    simp only [Response.addNsAnswer, index_of_getElem? h0, bind, Except.bind, pure, Except.pure]
    exact congrArg (fun s => Except.bind s fun value => Except.ok (r.push
      { name := nameOctets (l :: ls), queryType := .ns, value })) hslice

/-- No answer panics, and the answers go behind those already there. -/
theorem addAnswers_eq (h : Query.startsAcmeChallenge ls) (hkey : utf8 challengeKey = dotted ls)
    (r : Response) (t : ValidQueryType) (ips : ServerIps) :
    addAnswers r (nameOctets ls) t challengeKey ips cs =
      .ok { r with answers := r.answers ++ answersFor ls t ips cs } := by
  have hany := any_eq cs hkey
  cases t with
  | a => rcases hv : ips.v4 with _ | ip <;>
      simp [addAnswers, answersFor, answerData, hv, Response.addAAnswer, Response.push]
  | aaaa => rcases hv : ips.v6 with _ | ip <;>
      simp [addAnswers, answersFor, answerData, hv, Response.addAaaaAnswer, Response.push]
  | txt => simp [addAnswers, answersFor, answerData, named_eq cs hkey, foldl_addTxtAnswer]
  | ns =>
    by_cases hreg : cs.registered ls = []
    · simp [addAnswers, answersFor, answerData, hany, hreg]
    · simp [addAnswers, answersFor, answerData, hany, hreg, addNsAnswer_eq h, Response.push]
  | soa =>
    by_cases hreg : cs.registered ls = []
    · simp [addAnswers, answersFor, answerData, hany, hreg]
    · simp [addAnswers, answersFor, answerData, hany, hreg, Response.addSoaAnswer, Response.push]

theorem registered_eq_nil_iff :
    cs.registered ls = [] ↔ ∀ c ∈ cs.list, lowered (utf8 c.name) ≠ lowered (dotted ls) := by
  simp [Challenges.registered, eqIgnoreAsciiCase_iff]

end Answers

theorem validQueryType_toU16 (t : ValidQueryType) : validQueryType t.toU16 = some t := by
  cases t <;> rfl

theorem toU16_of_validQueryType {v : UInt16} {t : ValidQueryType} (h : validQueryType v = some t) :
    v = t.toU16 := by
  unfold validQueryType at h
  split_ifs at h with h1 h2 h3 h4 h5 <;> obtain rfl := Option.some.inj h
  · exact h1
  · exact h2
  · exact h3
  · exact h4
  · exact h5

/-! ## Responses -/

/-- The code and the answers of the response to a query. -/
def outcome (ls : List Label) (queryType : UInt16) (serverIps : ServerIps)
    (challenges : Challenges) : ResponseCode × List Answer :=
  match validQueryType queryType with
  | none => (.refused, [])
  | some t =>
    if Query.startsAcmeChallenge ls then
      if answersFor ls t serverIps challenges = [] then (.nxDomain, [])
      else (.noError, answersFor ls t serverIps challenges)
    else (.refused, [])

/-- A type that the server does not know, and a name that is no ACME name, are refused. -/
theorem outcome_of_not_acme {ls : List Label} {t : UInt16}
    (h : ¬ ((∃ t' : ValidQueryType, t = t'.toU16) ∧ Query.startsAcmeChallenge ls))
    (ips : ServerIps) (cs : Challenges) : outcome ls t ips cs = (.refused, []) := by
  unfold outcome
  rcases hv : validQueryType t with _ | t'
  · rfl
  · have hacme : ¬ Query.startsAcmeChallenge ls := fun hacme =>
      h ⟨⟨t', toU16_of_validQueryType hv⟩, hacme⟩
    simp only
    rw [if_neg hacme]

/-- The message has a header, and the response its identity and RD bit. -/
structure Echoes (m : List UInt8) (r : Response) : Prop where
  length_le : QueryHeader.length ≤ m.length
  id : u16At m 0 = .ok r.transactionId
  recursionDesired : ∃ f, m[2]? = some f ∧ r.recursionDesired = decide (f &&& 0b00000001 = 1)

theorem Echoes.of_eq {m : List UInt8} {r r' : Response} (h : Echoes m r)
    (hid : r'.transactionId = r.transactionId) (hrd : r'.recursionDesired = r.recursionDesired) :
    Echoes m r' := ⟨h.length_le, hid ▸ h.id, hrd ▸ h.recursionDesired⟩

/-- A response made before the question is known. -/
structure Bare (m : List UInt8) (r : Response) : Prop where
  echoes : Echoes m r
  query : r.query = none
  answers : r.answers = []
  rcode : r.rcode = .formErr ∨ r.rcode = .refused

theorem echoes_new {m : List UInt8} {header : QueryHeader} (hlen : QueryHeader.length ≤ m.length)
    (hid : u16At m 0 = .ok header.transactionId)
    (hrd : ∃ f, m[2]? = some f ∧ header.recursionDesired = decide (f &&& 0b00000001 = 1)) :
    Echoes m (Response.new header) := ⟨hlen, hid, hrd⟩

theorem responseForMessage_of_standard {m : List UInt8} (h : StandardQuery m) :
    ∃ r : Response, Echoes m r ∧ r.query = none ∧ r.answers = [] ∧
      responseForMessage m = (Query.fromBytes m QueryHeader.length).map fun
        | .error _ => .earlyExit { r with rcode := .formErr }
        | .ok (query, _) =>
          match validQueryType query.queryType with
          | none => .earlyExit { r with query := some query, rcode := .refused }
          | some t =>
            if query.isAcmeChallenge then
              .process { r with query := some query } query.queryNameBytes t query.queryNameString
            else .earlyExit { r with query := some query, rcode := .refused } := by
  obtain ⟨header, hheader, hid, hrd, hiff⟩ := QueryHeader.fromBytes_of_le h.length_le
  obtain ⟨htype, hop, hnum⟩ := hiff.2 h
  refine ⟨Response.new header, echoes_new h.length_le hid hrd, rfl, rfl, ?_⟩
  simp only [responseForMessage, hheader, htype, hop, hnum, bind, Except.bind, pure, Except.pure]
  rcases Query.fromBytes m QueryHeader.length with p | e | ⟨query, cursor⟩
  · rfl
  · rfl
  · simp only [Except.map, reduceCtorEq, ne_eq, not_true_eq_false, if_false]
    rcases validQueryType query.queryType with _ | t
    · rfl
    · by_cases hacme : query.isAcmeChallenge <;> simp [hacme]

theorem responseForMessage_of_not_standard {m : List UInt8} (h : ¬ StandardQuery m) :
    responseForMessage m = .ok .dontRespond ∨
      ∃ r : Response, responseForMessage m = .ok (.earlyExit r) ∧ Bare m r := by
  by_cases hlen : m.length < QueryHeader.length
  · refine .inl ?_
    simp [responseForMessage, QueryHeader.fromBytes_of_lt hlen, bind, Except.bind, pure,
      Except.pure]
  · obtain ⟨header, hheader, hid, hrd, hiff⟩ := QueryHeader.fromBytes_of_le (Nat.not_lt.1 hlen)
    have hechoes := echoes_new (Nat.not_lt.1 hlen) hid hrd
    simp only [responseForMessage, hheader, bind, Except.bind, pure, Except.pure]
    split_ifs with htype hop hnum
    · exact .inl rfl
    · exact .inr ⟨_, rfl, hechoes.of_eq rfl rfl, rfl, rfl, .inr rfl⟩
    · exact .inr ⟨_, rfl, hechoes.of_eq rfl rfl, rfl, rfl, .inl rfl⟩
    · refine absurd (hiff.1 ⟨?_, by simpa using hop, by simpa using hnum⟩) h
      cases hm : header.messageType <;> simp_all

section Build

variable {m : List UInt8}

/-- A standard query for an accepted name is answered with its question and its outcome; nothing
else of the response depends on the store and the addresses. -/
theorem exists_buildResponse_eq {ls : List Label} {t c : UInt16} (h : Answerable m ls t c) :
    ∃ (r : Response) (q : Query), Echoes m r ∧ r.query = some q ∧ q.Names ls ∧ q.queryType = t ∧
      q.queryClass = c ∧ ∀ ips cs, buildResponse m ips cs = .ok (some { r with
        rcode := (outcome ls t ips cs).1
        answers := (outcome ls t ips cs).2 }) := by
  obtain ⟨e, e', hrun, hroot, ht, hc⟩ := h.asks
  obtain ⟨q, hq, rfl, rfl, hparse⟩ := Query.exists_query h.accepted hrun.ne_nil t c
  have hfrom := hparse hrun hroot ht hc
  obtain ⟨r, hechoes, -, hanswers, hresp⟩ := responseForMessage_of_standard h.standard
  refine ⟨{ r with query := some q }, q, hechoes.of_eq rfl rfl, rfl, hq, rfl, rfl,
    fun ips cs => ?_⟩
  simp only [buildResponse, hresp, hfrom, Except.map, bind, Except.bind, outcome]
  rcases hvalid : validQueryType q.queryType with _ | t
  · simp [hanswers, pure, Except.pure]
  · by_cases hacme : Query.startsAcmeChallenge ls
    · simp only [hq.acme, hacme, if_true, hq.bytes]
      rw [addAnswers_eq cs hacme hq.key]
      simp only [hanswers, List.nil_append, setRcode, List.isEmpty_iff]
      split_ifs with hnil
      · simp [hnil, Response.setRcodeNxdomain, pure, Except.pure]
      · rfl
    · simp [hq.acme, hacme, hanswers, pure, Except.pure]

theorem buildResponse_of_answerable (ips : ServerIps) (cs : Challenges) {ls : List Label}
    {t c : UInt16} (h : Answerable m ls t c) :
    ∃ (r : Response) (q : Query), buildResponse m ips cs = .ok (some r) ∧ Echoes m r ∧
      r.query = some q ∧ q.Names ls ∧ q.queryType = t ∧ q.queryClass = c ∧
      (r.rcode, r.answers) = outcome ls t ips cs := by
  obtain ⟨r, q, hechoes, hquery, hq, htype, hclass, hr⟩ := exists_buildResponse_eq h
  exact ⟨_, q, hr ips cs, hechoes.of_eq rfl rfl, hquery, hq, htype, hclass, rfl⟩

theorem response_of_answerable {ips : ServerIps} {cs : Challenges} {ls : List Label} {t c : UInt16}
    {r : Response} (h : Answerable m ls t c) (hr : buildResponse m ips cs = .ok (some r)) :
    Echoes m r ∧ (r.rcode, r.answers) = outcome ls t ips cs ∧
      ∃ q, r.query = some q ∧ q.Names ls ∧ q.queryType = t ∧ q.queryClass = c := by
  obtain ⟨r', q, hr', hechoes, hquery, hq, htype, hclass, hout⟩ :=
    buildResponse_of_answerable ips cs h
  obtain rfl : r = r' := by simpa [hr] using hr'
  exact ⟨hechoes, hout, q, hquery, hq, htype, hclass⟩

/-- Any other message that does not panic has no response or a bare one, whatever the store and the
addresses are. -/
theorem buildResponse_of_not_answerable (h : ¬ ∃ ls t c, Answerable m ls t c)
    (hcut : ¬ (StandardQuery m ∧ CutShort m)) :
    ∃ o, (∀ ips cs, buildResponse m ips cs = .ok o) ∧ ∀ r, o = some r → Bare m r := by
  by_cases hstd : StandardQuery m
  · obtain ⟨r, hechoes, hquery, hanswers, hresp⟩ := responseForMessage_of_standard hstd
    rcases hfrom : Query.fromBytes m QueryHeader.length with p | e | ⟨q, cursor⟩
    · exact absurd ⟨hstd, Query.fromBytes_error_iff.1 ⟨p, hfrom⟩⟩ hcut
    · refine ⟨some { r with rcode := .formErr }, fun ips cs => ?_, ?_⟩
      · simp only [buildResponse, hresp, hfrom, Except.map, bind, Except.bind]
        rfl
      · rintro _ ⟨⟩
        exact ⟨hechoes.of_eq rfl rfl, hquery, hanswers, .inl rfl⟩
    · obtain ⟨ls, hasks, hacc, -⟩ := Query.fromBytes_ok_iff.1 ⟨cursor, hfrom⟩
      exact absurd ⟨ls, _, _, hstd, hasks, hacc⟩ h
  · rcases responseForMessage_of_not_standard hstd with hresp | ⟨r, hresp, hbare⟩
    · refine ⟨none, fun ips cs => ?_, by simp⟩
      simp only [buildResponse, hresp, bind, Except.bind]
      rfl
    · refine ⟨some r, fun ips cs => ?_, ?_⟩
      · simp only [buildResponse, hresp, bind, Except.bind]
        rfl
      · rintro _ ⟨⟩
        exact hbare

theorem responseForMessage_of_cutShort (hstd : StandardQuery m) (hcut : CutShort m) :
    ∃ p, responseForMessage m = .error p := by
  obtain ⟨r, -, -, -, hresp⟩ := responseForMessage_of_standard hstd
  obtain ⟨p, hp⟩ := Query.fromBytes_error_iff.2 hcut
  exact ⟨p, by rw [hresp, hp]; rfl⟩

theorem buildResponse_of_cutShort (ips : ServerIps) (cs : Challenges) (hstd : StandardQuery m)
    (hcut : CutShort m) : ∃ p, buildResponse m ips cs = .error p := by
  obtain ⟨p, hp⟩ := responseForMessage_of_cutShort hstd hcut
  exact ⟨p, by simp only [buildResponse, hp, bind, Except.bind]⟩

theorem answerable_or_bare {ips : ServerIps} {cs : Challenges} {r : Response}
    (hr : buildResponse m ips cs = .ok (some r)) :
    (∃ ls t c, Answerable m ls t c) ∨ Bare m r := by
  refine or_iff_not_imp_left.2 fun hans => ?_
  have hcut : ¬ (StandardQuery m ∧ CutShort m) := fun ⟨hstd, hcut⟩ => by
    obtain ⟨p, hp⟩ := buildResponse_of_cutShort ips cs hstd hcut
    simp [hp] at hr
  obtain ⟨o, ho, hbare⟩ := buildResponse_of_not_answerable hans hcut
  exact hbare r (Except.ok.inj ((ho ips cs).symm.trans hr))

end Build

/-! ## Panics -/

theorem handleRequest_eq (m : List UInt8) (ips : ServerIps) (cs : Challenges) :
    handleRequest m ips cs = (buildResponse m ips cs).map (Option.map Response.toBytes) := by
  unfold handleRequest
  rcases buildResponse m ips cs with p | o <;> rfl

theorem handleRequest_eq_some_iff {m : List UInt8} {ips : ServerIps} {cs : Challenges}
    {bytes : List UInt8} : handleRequest m ips cs = .ok (some bytes) ↔
      ∃ r, buildResponse m ips cs = .ok (some r) ∧ r.toBytes = bytes := by
  rw [handleRequest_eq]
  rcases buildResponse m ips cs with p | o | r <;> simp [Except.map]

theorem panic_of_cutShort {m : List UInt8} (hstd : StandardQuery m) (hcut : CutShort m)
    (ips : ServerIps) (cs : Challenges) : ∃ p, handleRequest m ips cs = .error p := by
  obtain ⟨p, hp⟩ := buildResponse_of_cutShort ips cs hstd hcut
  exact ⟨p, by rw [handleRequest_eq, hp]; rfl⟩

theorem exists_handleRequest {m : List UInt8} (hcut : ¬ (StandardQuery m ∧ CutShort m))
    (ips : ServerIps) (cs : Challenges) : ∃ o, handleRequest m ips cs = .ok o := by
  obtain ⟨o, ho⟩ : ∃ o, buildResponse m ips cs = .ok o := by
    by_cases h : ∃ ls t c, Answerable m ls t c
    · obtain ⟨ls, t, c, h⟩ := h
      obtain ⟨r, -, hr, -⟩ := buildResponse_of_answerable ips cs h
      exact ⟨_, hr⟩
    · obtain ⟨o, ho, -⟩ := buildResponse_of_not_answerable h hcut
      exact ⟨o, ho ips cs⟩
  exact ⟨o.map Response.toBytes, by rw [handleRequest_eq, ho]; rfl⟩

/-- `handleRequest` returns exactly when it is not given a standard query whose question is cut
short. -/
theorem handleRequest_ok_iff (m : List UInt8) (ips : ServerIps) (cs : Challenges) :
    (∃ o, handleRequest m ips cs = .ok o) ↔ ¬ (StandardQuery m ∧ CutShort m) := by
  constructor
  · rintro ⟨o, h⟩ ⟨hstd, hcut⟩
    obtain ⟨p, hp⟩ := panic_of_cutShort hstd hcut ips cs
    rw [hp] at h
    cases h
  · intro hcut
    exact exists_handleRequest hcut ips cs

/-- A bare header that announces a question. -/
theorem not_handleRequest_ok :
    ¬ ∀ m ips cs, ∃ o, handleRequest m ips cs = .ok o := by
  intro h
  obtain ⟨o, ho⟩ := h [0, 0, 0, 0, 0, 1, 0, 0, 0, 0, 0, 0] ⟨none, none⟩ Challenges.new
  have hp : handleRequest [0, 0, 0, 0, 0, 1, 0, 0, 0, 0, 0, 0] ⟨none, none⟩ Challenges.new
      = .error (.indexOutOfBounds 12 12) := by decide +kernel
  rw [hp] at ho
  cases ho

end AcmeChampion
