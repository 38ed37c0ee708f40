import AcmeChampion.Proofs.Gate

/-!
# How long a response is

The question is written out in full, so an answerless response is no longer than a message that
spells the name it asks for, and one that points to labels may be answered at greater length
(`length_answerless`).  With answers the length is a sum over them, each with the name again
(`length_answered`), and no response is ever marked as truncated.
-/

namespace AcmeChampion

open Bytes Text Wire

variable {m : List UInt8} {ips : ServerIps} {cs : Challenges} {r : Response}

theorem length_queryBytes_of_answerable {ls : List Label} {t c : UInt16}
    (h : Answerable m ls t c) (hr : buildResponse m ips cs = .ok (some r)) :
    r.queryBytes.length = (nameOctets ls).length + 4 := by
  obtain ⟨-, -, q, hquery, hq, -⟩ := response_of_answerable h hr
  simp [Response.queryBytes, hquery, Query.toBytes, hq.bytes, u16ToBeBytes]

theorem length_le_of_answerable {ls : List Label} {t c : UInt16} (h : Answerable m ls t c)
    (hptr : ¬ MeetsPointer m QueryHeader.length) :
    QueryHeader.length + (nameOctets ls).length + 4 ≤ m.length := by
  obtain ⟨e, e', hrun, hroot, ht, hc⟩ := h.asks
  obtain ⟨-, he', -⟩ := asks_drop_eq hrun hroot ht hc hptr
  have := u16At_ok_iff.1 ⟨c, hc⟩
  omega

/-- An answerless response is a header, with the question of an accepted name behind it. -/
theorem length_toBytes_cases (hr : buildResponse m ips cs = .ok (some r))
    (hanswers : r.answers = []) :
    (∃ (ls : List Label) (t c : UInt16), Answerable m ls t c ∧ r.query ≠ none ∧
      r.toBytes.length = QueryHeader.length + (nameOctets ls).length + 4) ∨
    (QueryHeader.length ≤ m.length ∧ r.toBytes.length = QueryHeader.length) := by
  have hlen := r.length_toBytes
  rw [hanswers, List.map_nil, List.sum_nil, Nat.add_zero] at hlen
  rcases answerable_or_bare hr with ⟨ls, t, c, h⟩ | hbare
  · obtain ⟨-, -, q, hquery, -⟩ := response_of_answerable h hr
    refine .inl ⟨ls, t, c, h, by simp [hquery], ?_⟩
    rw [hlen, length_queryBytes_of_answerable h hr, Nat.add_assoc]
  · refine .inr ⟨hbare.echoes.length_le, ?_⟩
    simpa [Response.queryBytes, hbare.query] using hlen

theorem length_answerless_le (hr : buildResponse m ips cs = .ok (some r))
    (hanswers : r.answers = []) : r.toBytes.length ≤ 271 := by
  have hheader : QueryHeader.length = 12 := rfl
  rcases length_toBytes_cases hr hanswers with ⟨ls, t, c, h, -, hlen⟩ | ⟨-, hlen⟩
  · have := h.accepted.le_255
    omega
  · omega

/-- A response without answers is no longer than its message, when it has no question or the
message's question has no pointer; and it never has more than 271 octets. -/
theorem length_answerless (hr : buildResponse m ips cs = .ok (some r)) (hanswers : r.answers = []) :
    (r.query = none ∨ ¬ MeetsPointer m QueryHeader.length → r.toBytes.length ≤ m.length) ∧
      r.toBytes.length ≤ 271 := by
  refine ⟨fun hcond => ?_, length_answerless_le hr hanswers⟩
  rcases length_toBytes_cases hr hanswers with ⟨ls, t, c, h, hquery, hlen⟩ | ⟨hle, hlen⟩
  · rcases hcond with hnone | hptr
    · exact absurd hnone hquery
    · exact hlen ▸ length_le_of_answerable h hptr
  · exact hlen ▸ hle

/-- A name that is not registered: its question is in the response. -/
theorem length_answerless_acmeQuery : ∃ r,
    buildResponse (acmeQuery .txt).toBytes ⟨none, none⟩ Challenges.new = .ok (some r) ∧
      r.rcode = .nxDomain ∧ r.query ≠ none ∧
      r.toBytes.length ≤ (acmeQuery .txt).toBytes.length := by
  have hr : buildResponse (acmeQuery .txt).toBytes ⟨none, none⟩ Challenges.new =
      .ok (some ⟨0, false, .nxDomain, some ⟨15 :: acmeChallengeLabel ++ [0], "_acme-challenge",
        16, 1, true⟩, []⟩) := by decide +kernel
  exact ⟨_, hr, rfl, by simp, (length_answerless hr rfl).1 (.inr (acmeQuery .txt).not_meetsPointer)⟩

/-- A query for a label and a pointer to that label, in 35 octets. -/
def pointerQuery : List UInt8 :=
  [0, 0, 0, 0, 0, 1, 0, 0, 0, 0, 0, 0] ++ 15 :: acmeChallengeLabel ++ [192, 12, 0, 0, 16, 0, 1]

/-- An empty store: the answerless response has 49 octets. -/
theorem length_answerless_pointerQuery : ∃ r,
    buildResponse pointerQuery ⟨none, none⟩ Challenges.new = .ok (some r) ∧ r.answers = [] ∧
      pointerQuery.length < r.toBytes.length :=
  ⟨⟨0, false, .nxDomain, some ⟨15 :: acmeChallengeLabel ++ 15 :: acmeChallengeLabel ++ [0],
    "_acme-challenge._acme-challenge", 16, 1, true⟩, []⟩, by decide +kernel, rfl, by decide +kernel⟩

/-! ## With answers -/

/-- The length of the response to a query that is answered. -/
def answeredLength (ls : List Label) (t : ValidQueryType) (cs : Challenges) : ℕ :=
  let n := (nameOctets ls).length
  match t with
  | .a => 2 * n + 30
  | .aaaa => 2 * n + 42
  | .ns => 3 * n + 10
  | .soa => 4 * n + 46
  | .txt => 16 + n + ((cs.registered ls).map fun c => n + 11 + (utf8 c.value).length).sum

theorem length_tail_of_acme {ls : List Label} (h : Query.startsAcmeChallenge ls) :
    (nameOctets ls).length = (nameOctets ls.tail).length + 16 := by
  match ls, h with
  | l :: ls, h =>
    have hl := length_of_startsAcmeChallenge h
    simp only [nameOctets_cons, List.length_cons, List.length_append, List.tail_cons]
    omega

theorem length_answersFor {ls : List Label} {t : ValidQueryType}
    (hacme : Query.startsAcmeChallenge ls) (hne : answersFor ls t ips cs ≠ []) :
    16 + (nameOctets ls).length +
        ((answersFor ls t ips cs).map fun a => a.name.length + 10 + a.value.length).sum
      = answeredLength ls t cs := by
  rw [Ne, answersFor_eq_nil_iff] at hne
  unfold answersFor answeredLength
  rw [List.map_map]
  cases t with
  | a =>
    obtain ⟨ip, hip⟩ := Option.ne_none_iff_exists'.1 hne
    simp [answerData, hip]
    omega
  | aaaa =>
    obtain ⟨ip, hip⟩ := Option.ne_none_iff_exists'.1 hne
    simp [answerData, hip]
    omega
  | txt =>
    simp only [answerData, List.map_map]
    congr 3
    funext c
    simp
    omega
  | ns =>
    have htail := length_tail_of_acme hacme
    simp only [SourceEmpty, ← registered_eq_nil_iff] at hne
    simp [answerData, hne]
    omega
  | soa =>
    simp only [SourceEmpty, ← registered_eq_nil_iff] at hne
    simp [answerData, hne, u32ToBeBytes]
    omega

theorem length_answered (hr : buildResponse m ips cs = .ok (some r)) (hanswers : r.answers ≠ []) :
    ∃ (ls : List Label) (t : ValidQueryType) (c : UInt16), Answerable m ls t.toU16 c ∧
      r.answers = answersFor ls t ips cs ∧ r.toBytes.length = answeredLength ls t cs := by
  obtain ⟨ls, t, c, h, hacme, heq⟩ := answers_eq hr hanswers
  refine ⟨ls, t, c, h, heq, ?_⟩
  rw [← length_answersFor hacme (heq ▸ hanswers), ← heq, r.length_toBytes,
    length_queryBytes_of_answerable h hr]
  simp only [QueryHeader.length]
  omega

theorem length_answers_le (ls : List Label) (t : ValidQueryType) (ips : ServerIps)
    (ops : List StoreOp) :
    (answersFor ls t ips (Challenges.run ops)).length ≤ Challenges.maxLen := by
  have hone : 1 ≤ Challenges.maxLen := by decide
  unfold answersFor
  rw [List.length_map]
  cases t with
  | a => rcases hv : ips.v4 with _ | ip <;> simp [answerData, hv, hone]
  | aaaa => rcases hv : ips.v6 with _ | ip <;> simp [answerData, hv, hone]
  | txt =>
    rw [answerData, List.length_map]
    exact (List.length_filter_le _ _).trans (Challenges.length_run_le ops)
  | ns =>
    unfold answerData
    split_ifs <;> simp [hone]
  | soa =>
    unfold answerData
    split_ifs <;> simp [hone]

theorem toU16_inj {t t' : ValidQueryType} (h : t.toU16 = t'.toU16) : t = t' := by
  have ht := validQueryType_toU16 t
  rw [h, validQueryType_toU16] at ht
  exact (Option.some.inj ht).symm

/-- No response has TC set.  An answerless one has at most 271 octets; one with answers has at most
100 of them and the length that the name, the type and the values make, so a response is within
512 octets exactly when it is answerless or that length is. -/
theorem length_response {ops : List StoreOp}
    (hr : buildResponse m ips (Challenges.run ops) = .ok (some r)) :
    (∃ g, r.toBytes[2]? = some g ∧ g &&& 0b00000010 = 0) ∧
    (r.answers = [] → r.toBytes.length ≤ 271) ∧
    (r.answers ≠ [] → ∃ (ls : List Label) (t : ValidQueryType) (c : UInt16),
      Answerable m ls t.toU16 c ∧ r.answers.length ≤ Challenges.maxLen ∧
        r.toBytes.length = answeredLength ls t (Challenges.run ops)) ∧
    (r.toBytes.length ≤ 512 ↔ r.answers = [] ∨
      ∃ (ls : List Label) (t : ValidQueryType) (c : UInt16), Answerable m ls t.toU16 c ∧
        answeredLength ls t (Challenges.run ops) ≤ 512) := by
  refine ⟨⟨_, r.getElem?_toBytes, ?_⟩, length_answerless_le hr, ?_, ?_⟩
  · cases r.recursionDesired <;> decide
  · intro hanswers
    obtain ⟨ls, t, c, h, heq, hlen⟩ := length_answered hr hanswers
    exact ⟨ls, t, c, h, heq ▸ length_answers_le ls t ips ops, hlen⟩
  · by_cases hanswers : r.answers = []
    · have := length_answerless_le hr hanswers
      exact ⟨fun _ => .inl hanswers, fun _ => by omega⟩
    · obtain ⟨ls, t, c, h, -, hlen⟩ := length_answered hr hanswers
      rw [hlen]
      constructor
      · intro hle
        exact .inr ⟨ls, t, c, h, hle⟩
      · rintro (hnil | ⟨ls', t', c', h', hle⟩)
        · exact absurd hnil hanswers
        · obtain ⟨rfl, ht, -⟩ := h.asks.unique h'.asks
          exact toU16_inj ht ▸ hle

theorem length_response_acmeQuery : ∃ r,
    buildResponse (acmeQuery .a).toBytes ⟨some 1, none⟩ (Challenges.run []) = .ok (some r) ∧
      (r.toBytes.length ≤ 512 ↔ r.answers = [] ∨
        ∃ (ls : List Label) (t : ValidQueryType) (c : UInt16),
          Answerable (acmeQuery .a).toBytes ls t.toU16 c ∧
            answeredLength ls t (Challenges.run []) ≤ 512) := by
  obtain ⟨r, hr, -⟩ := (acmeQuery .a).exists_response ⟨some 1, none⟩ (Challenges.run [])
  exact ⟨r, hr, (length_response hr).2.2.2⟩

/-- Seven registrations of one name, with the values that ACME servers expect. -/
def sevenSets : List StoreOp :=
  List.replicate 7 (.set ⟨"d", "_acme-challenge", "LoqXcYV8q5ONbJQxbmR7SCTNo3tiAXDfowyjxAjEuX0"⟩)

/-- The response to a TXT query for the name has 530 octets, and TC clear. -/
theorem length_response_sevenSets : ∃ r,
    buildResponse (acmeQuery .txt).toBytes ⟨none, none⟩ (Challenges.run sevenSets) = .ok (some r) ∧
      512 < r.toBytes.length ∧ ∃ g, r.toBytes[2]? = some g ∧ g &&& 0b00000010 = 0 := by
  obtain ⟨r, hr, hout⟩ := (acmeQuery .txt).exists_response ⟨none, none⟩ (Challenges.run sevenSets)
  have hanswers : r.answers ≠ [] := by
    rw [(Prod.mk.inj hout).2]
    decide +kernel
  obtain ⟨ls, t, c, h, -, hlen⟩ := length_answered hr hanswers
  obtain ⟨rfl, ht, -⟩ := h.asks.unique (answerable_acmeQuery .txt).asks
  obtain rfl : t = .txt := toU16_inj ht
  refine ⟨r, hr, ?_, _, r.getElem?_toBytes, ?_⟩
  · rw [hlen]
    decide +kernel
  · cases r.recursionDesired <;> decide

end AcmeChampion
