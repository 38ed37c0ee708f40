import AcmeChampion.Proofs.Standard

/-!
# Which queries are answered NXDOMAIN

The code is chosen from the answers alone, and TXT, NS and SOA answers come from the store, A and
AAAA answers from the server's addresses.  So the types that the store answers agree on a name, and
a type of the other kind is answered NXDOMAIN when its own source is empty, whatever the name has.
-/

namespace AcmeChampion

open Text Wire

def ValidQueryType.fromStore : ValidQueryType → Bool
  | .txt | .ns | .soa => true
  | .a | .aaaa => false

/-- What the answers of the type come from holds nothing for the name. -/
def SourceEmpty (ls : List Label) (queryType : ValidQueryType) (serverIps : ServerIps)
    (challenges : Challenges) : Prop :=
  match queryType with
  | .a => serverIps.v4 = none
  | .aaaa => serverIps.v6 = none
  | .txt | .ns | .soa => ∀ c ∈ challenges.list, lowered (utf8 c.name) ≠ lowered (dotted ls)

theorem answersFor_eq_nil_iff (ls : List Label) (t : ValidQueryType) (ips : ServerIps)
    (cs : Challenges) : answersFor ls t ips cs = [] ↔ SourceEmpty ls t ips cs := by
  unfold answersFor
  rw [List.map_eq_nil_iff]
  cases t with
  | a => simp [answerData, SourceEmpty]
  | aaaa => simp [answerData, SourceEmpty]
  | txt => simp [answerData, SourceEmpty, ← registered_eq_nil_iff]
  | ns => simp [answerData, SourceEmpty, ← registered_eq_nil_iff]
  | soa => simp [answerData, SourceEmpty, ← registered_eq_nil_iff]

theorem SourceEmpty.congr {ls ls' : List Label} (h : ls.map lowered = ls'.map lowered)
    {t t' : ValidQueryType} (ht : t.fromStore) (ht' : t'.fromStore) (ips : ServerIps)
    (cs : Challenges) : SourceEmpty ls t ips cs ↔ SourceEmpty ls' t' ips cs := by
  cases t <;> cases t' <;> simp_all [SourceEmpty, lowered_dotted, ValidQueryType.fromStore]

theorem startsAcmeChallenge_congr {ls ls' : List Label} (h : ls.map lowered = ls'.map lowered) :
    Query.startsAcmeChallenge ls = Query.startsAcmeChallenge ls' := by
  cases ls <;> cases ls' <;> simp_all [Query.startsAcmeChallenge, eqIgnoreAsciiCase]

theorem outcome_of_acme {ls : List Label} (h : Query.startsAcmeChallenge ls) (t : ValidQueryType)
    (ips : ServerIps) (cs : Challenges) : outcome ls t.toU16 ips cs =
      if answersFor ls t ips cs = [] then (.nxDomain, [])
      else (.noError, answersFor ls t ips cs) := by
  simp [outcome, validQueryType_toU16, h]

theorem rcode_answers_of_answerable {m : List UInt8} {ls : List Label} {t c : UInt16}
    (h : Answerable m ls t c) {ips : ServerIps} {cs : Challenges} {r : Response}
    (hr : buildResponse m ips cs = .ok (some r)) : (r.rcode, r.answers) = outcome ls t ips cs := by
  obtain ⟨-, hout, -⟩ := response_of_answerable h hr
  exact hout

/-- The answers of a response that has any are those for the name and type of its message. -/
theorem answers_eq {m : List UInt8} {ips : ServerIps} {cs : Challenges} {r : Response}
    (hr : buildResponse m ips cs = .ok (some r)) (hanswers : r.answers ≠ []) :
    ∃ (ls : List Label) (t : ValidQueryType) (c : UInt16), Answerable m ls t.toU16 c ∧
      Query.startsAcmeChallenge ls ∧ r.answers = answersFor ls t ips cs := by
  rcases answerable_or_bare hr with ⟨ls, t, c, h⟩ | hbare
  · have hout := rcode_answers_of_answerable h hr
    by_cases hacme : (∃ t' : ValidQueryType, t = t'.toU16) ∧ Query.startsAcmeChallenge ls
    · obtain ⟨⟨t', rfl⟩, hacme⟩ := hacme
      rw [outcome_of_acme hacme] at hout
      split_ifs at hout with hnil
      · exact absurd (Prod.mk.inj hout).2 hanswers
      · exact ⟨ls, t', c, h, hacme, (Prod.mk.inj hout).2⟩
    · rw [outcome_of_not_acme hacme] at hout
      exact absurd (Prod.mk.inj hout).2 hanswers
  · exact absurd hbare.answers hanswers

/-- Where a name in any letter case is answered with a record, a query for it is answered NXDOMAIN
exactly when the source of its own type is empty; so never among the types of the store. -/
theorem rcode_nxDomain_iff {m m' : List UInt8} {ips : ServerIps} {cs : Challenges}
    {ls ls' : List Label} {t t' : ValidQueryType} {c c' : UInt16} {r r' : Response}
    (h : Answerable m ls t.toU16 c) (h' : Answerable m' ls' t'.toU16 c')
    (hacme : Query.startsAcmeChallenge ls) (hsame : ls.map lowered = ls'.map lowered)
    (hr : buildResponse m ips cs = .ok (some r)) (hcode : r.rcode = .noError)
    (hanswers : r.answers ≠ []) (hr' : buildResponse m' ips cs = .ok (some r')) :
    (r'.rcode = .nxDomain ↔ SourceEmpty ls' t' ips cs) ∧
      (t.fromStore → t'.fromStore → r'.rcode ≠ .nxDomain) := by
  have hout := rcode_answers_of_answerable h hr
  have hout' := rcode_answers_of_answerable h' hr'
  rw [outcome_of_acme hacme] at hout
  rw [outcome_of_acme (startsAcmeChallenge_congr hsame ▸ hacme)] at hout'
  have hiff : r'.rcode = .nxDomain ↔ SourceEmpty ls' t' ips cs := by
    rw [← answersFor_eq_nil_iff]
    split_ifs at hout' <;> simp_all
  refine ⟨hiff, fun ht ht' hnx => ?_⟩
  have hempty := (SourceEmpty.congr hsame ht ht' ips cs).2 (hiff.1 hnx)
  rw [if_pos ((answersFor_eq_nil_iff ..).2 hempty)] at hout
  simp_all

def acmeName : Name := ⟨[acmeChallengeLabel], by decide +kernel⟩

def acmeQuery (t : ValidQueryType) : StandardMessage :=
  .plain acmeName t.toU16 (by decide +kernel)

theorem answerable_acmeQuery (t : ValidQueryType) :
    Answerable (acmeQuery t).toBytes acmeName.labels t.toU16 inClass :=
  (acmeQuery t).answerable

theorem rcode_nxDomain_iff_txt : ∃ r r',
    buildResponse (acmeQuery .aaaa).toBytes ⟨none, some 1⟩ Challenges.new = .ok (some r) ∧
      buildResponse (acmeQuery .txt).toBytes ⟨none, some 1⟩ Challenges.new = .ok (some r') ∧
        (r'.rcode = .nxDomain ↔
          SourceEmpty acmeName.labels .txt ⟨none, some 1⟩ Challenges.new) := by
  obtain ⟨r, hr, hout⟩ := (acmeQuery .aaaa).exists_response ⟨none, some 1⟩ Challenges.new
  obtain ⟨r', hr', -⟩ := (acmeQuery .txt).exists_response ⟨none, some 1⟩ Challenges.new
  have hval : outcome acmeName.labels ValidQueryType.aaaa.toU16 ⟨none, some 1⟩ Challenges.new
      = (.noError,
        [⟨acmeName.octets, .aaaa, [0, 0, 0, 0, 0, 0, 0, 0, 0, 0, 0, 0, 0, 0, 0, 1]⟩]) := by
    decide +kernel
  obtain ⟨hcode, hanswers⟩ := Prod.mk.inj (hout.trans hval)
  exact ⟨r, r', hr, hr', (rcode_nxDomain_iff (answerable_acmeQuery .aaaa)
    (answerable_acmeQuery .txt) (by decide +kernel) rfl hr hcode (by simp [hanswers]) hr').1⟩

/-- An empty store and an IPv4 address: the name has an A record and is NXDOMAIN for TXT. -/
theorem rcode_nxDomain_of_answered : ∃ r r',
    buildResponse (acmeQuery .a).toBytes ⟨some 1, none⟩ Challenges.new = .ok (some r) ∧
      r.rcode = .noError ∧ r.answers ≠ [] ∧
      buildResponse (acmeQuery .txt).toBytes ⟨some 1, none⟩ Challenges.new = .ok (some r') ∧
      r'.rcode = .nxDomain := by
  obtain ⟨r, hr, hout⟩ := (acmeQuery .a).exists_response ⟨some 1, none⟩ Challenges.new
  obtain ⟨r', hr', hout'⟩ := (acmeQuery .txt).exists_response ⟨some 1, none⟩ Challenges.new
  have hval : outcome acmeName.labels ValidQueryType.a.toU16 ⟨some 1, none⟩ Challenges.new
      = (.noError, [⟨acmeName.octets, .a, [0, 0, 0, 1]⟩]) := by decide +kernel
  have hval' : outcome acmeName.labels ValidQueryType.txt.toU16 ⟨some 1, none⟩ Challenges.new
      = (.nxDomain, []) := by decide +kernel
  obtain ⟨hcode, hanswers⟩ := Prod.mk.inj (hout.trans hval)
  obtain ⟨hcode', -⟩ := Prod.mk.inj (hout'.trans hval')
  exact ⟨r, r', hr, hcode, by simp [hanswers], hr', hcode'⟩

end AcmeChampion
