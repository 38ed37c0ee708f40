import AcmeChampion.Proofs.Encoding

/-!
# The gate

Only a standard query of a known type for an ACME name is looked up.  An answer shows that the
message passed this gate, and what a message that does not pass it gets is the same for every store
and every address (`gate`).
-/

namespace AcmeChampion

open Bytes Text Wire

/-- The message is a standard query of a known type for an accepted name that begins with the ACME
label, in the question that the parser reads. -/
def Gate (m : List UInt8) : Prop :=
  ∃ (ls : List Label) (t : ValidQueryType) (c : UInt16),
    Answerable m ls t.toU16 c ∧ Query.startsAcmeChallenge ls

variable {m : List UInt8}

theorem outcome_of_not_gate {ls : List Label} {t c : UInt16} (h : Answerable m ls t c)
    (hgate : ¬ Gate m) (ips : ServerIps) (cs : Challenges) :
    outcome ls t ips cs = (.refused, []) := by
  refine outcome_of_not_acme ?_ ips cs
  rintro ⟨⟨t', rfl⟩, hacme⟩
  exact hgate ⟨ls, t', c, h, hacme⟩

theorem echo_of_answerable {ls : List Label} {t c : UInt16} (h : Answerable m ls t c)
    {ips : ServerIps} {cs : Challenges} {r : Response}
    (hr : buildResponse m ips cs = .ok (some r)) :
    nameOctets ls ++ (u16ToBeBytes t ++ u16ToBeBytes c) <+: r.toBytes.drop QueryHeader.length := by
  obtain ⟨-, -, q, hquery, hq, rfl, rfl⟩ := response_of_answerable h hr
  rw [r.drop_toBytes]
  refine ⟨r.answers.flatMap Answer.toBytes, ?_⟩
  simp [Response.queryBytes, hquery, Query.toBytes, hq.bytes]

/-- What a message outside the gate gets. -/
theorem buildResponse_of_not_gate (hgate : ¬ Gate m) (hok : ∃ o, responseForMessage m = .ok o) :
    ∃ o, (∀ ips cs, buildResponse m ips cs = .ok o) ∧
      ∀ r, o = some r → r.answers = [] ∧ (r.rcode = .formErr ∨ r.rcode = .refused) := by
  by_cases h : ∃ ls t c, Answerable m ls t c
  · obtain ⟨ls, t, c, h⟩ := h
    obtain ⟨r, q, -, -, -, -, -, hr⟩ := exists_buildResponse_eq h
    refine ⟨some { r with rcode := .refused, answers := [] }, fun ips cs => ?_, ?_⟩
    · rw [hr, outcome_of_not_gate h hgate]
    · rintro _ ⟨⟩
      exact ⟨rfl, .inr rfl⟩
  · have hcut : ¬ (StandardQuery m ∧ CutShort m) := by
      rintro ⟨hstd, hcut⟩
      obtain ⟨p, hp⟩ := responseForMessage_of_cutShort hstd hcut
      obtain ⟨o, ho⟩ := hok
      simp [hp] at ho
    obtain ⟨o, ho, hbare⟩ := buildResponse_of_not_answerable h hcut
    exact ⟨o, ho, fun r hr => ⟨(hbare r hr).answers, (hbare r hr).rcode⟩⟩

/-- A response with an answer shows a standard query of a known type, and its question, as the
parser reads it and the response echoes it, begins with the ACME label; a message outside the gate
that does not panic has one result for every store and all addresses, which is no response or one
without answers and with FORMERR or REFUSED. -/
theorem gate (m : List UInt8) :
    (∀ ips cs r, buildResponse m ips cs = .ok (some r) → r.answers ≠ [] →
      StandardQuery m ∧ ∃ (l : Label) (ls : List Label) (t : ValidQueryType) (c : UInt16),
        Asks m (l :: ls) t.toU16 c ∧ eqIgnoreAsciiCase l acmeChallengeLabel ∧
          nameOctets (l :: ls) ++ (u16ToBeBytes t.toU16 ++ u16ToBeBytes c)
            <+: r.toBytes.drop QueryHeader.length) ∧
    (¬ Gate m → (∃ o, responseForMessage m = .ok o) →
      ∃ o, (∀ ips cs, handleRequest m ips cs = .ok o) ∧
        (o = none ∨ ∃ r : Response, o = some r.toBytes ∧ r.answers = [] ∧
          (r.rcode = .formErr ∨ r.rcode = .refused))) := by
  constructor
  · intro ips cs r hr hanswers
    obtain ⟨ls, t, c, h, hacme, -⟩ := answers_eq hr hanswers
    refine ⟨h.standard, ?_⟩
    rcases ls with _ | ⟨l, ls⟩
    · simp [Query.startsAcmeChallenge] at hacme
    · exact ⟨l, ls, t, c, h.asks, hacme, echo_of_answerable h hr⟩
  · intro hgate hok
    obtain ⟨o, ho, hnone⟩ := buildResponse_of_not_gate hgate hok
    refine ⟨o.map Response.toBytes, fun ips cs => ?_, ?_⟩
    · rw [handleRequest_eq, ho]
      rfl
    · rcases o with _ | r
      · exact .inl rfl
      · exact .inr ⟨r, rfl, hnone r rfl⟩

/-- An inverse query, refused. -/
def inverseQuery : List UInt8 := [0, 0, 8, 0, 0, 1, 0, 0, 0, 0, 0, 0]

theorem not_gate_inverseQuery : ¬ Gate inverseQuery := by
  rintro ⟨ls, t, c, h, -⟩
  obtain ⟨f, hf, hlt⟩ := h.standard.flags
  obtain rfl : 8 = f := Option.some.inj hf
  exact absurd hlt (by decide)

theorem gate_acmeQuery :
    (∃ r, buildResponse (acmeQuery .a).toBytes ⟨some 1, none⟩ Challenges.new = .ok (some r) ∧
      StandardQuery (acmeQuery .a).toBytes) ∧
    ∃ o, handleRequest inverseQuery ⟨none, none⟩ Challenges.new = .ok o ∧
      handleRequest inverseQuery ⟨some 1, none⟩ ⟨[⟨"d", "_acme-challenge", "v"⟩]⟩ = .ok o := by
  constructor
  · obtain ⟨r, hr, hout⟩ := (acmeQuery .a).exists_response ⟨some 1, none⟩ Challenges.new
    have hval : outcome acmeName.labels ValidQueryType.a.toU16 ⟨some 1, none⟩ Challenges.new
        = (.noError, [⟨acmeName.octets, .a, [0, 0, 0, 1]⟩]) := by decide +kernel
    obtain ⟨-, hanswers⟩ := Prod.mk.inj (hout.trans hval)
    exact ⟨r, hr, ((gate (acmeQuery .a).toBytes).1 _ _ r hr (by simp [hanswers])).1⟩
  · obtain ⟨o, ho, -⟩ := (gate inverseQuery).2 not_gate_inverseQuery ⟨_, rfl⟩
    exact ⟨o, ho _ _, ho _ _⟩

end AcmeChampion
