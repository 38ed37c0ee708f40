import AcmeChampion.Proofs.Encoding

/-!
# When the answer is a well-formed message

The names that a response writes are the question's, and every length octet of a literal label is
below 64; the octet that a pointer leads to is not, so a label of 64 octets or more comes through a
pointer, and is written out again.  Nothing else makes a response malformed (`wellFormed_iff`).
-/

namespace AcmeChampion

open Bytes Text Wire

theorem validLabels_of_answerable {m : List UInt8} {ls : List Label} {t c : UInt16}
    (h : Answerable m ls t c) (h63 : ∀ l ∈ ls, l.length ≤ 63) : ValidLabels ls :=
  ⟨fun l hl => List.length_pos_iff.2 (h.asks.ne_nil l hl), h63, h.accepted.le_255⟩

/-- The answers are data of the name, of one type, within the bounds of a message. -/
def AnswersOf (n : Name) (answers : List Answer) : Prop :=
  ∃ (t : ValidQueryType) (ds : List Rdata), answers = ds.map (fun d => ⟨n.octets, t, d.octets⟩) ∧
    (∀ d ∈ ds, d.rtype = t.toU16) ∧ (∀ d ∈ ds, d.octets.length < 2 ^ 16) ∧ ds.length < 2 ^ 16

theorem answersOf_nil (n : Name) : AnswersOf n [] := ⟨.a, [], by simp⟩

theorem answersOf_outcome (n : Name) (t : UInt16) (ips : ServerIps) (ops : List StoreOp)
    (hvalues : ∀ c ∈ Challenges.sets ops, (utf8 c.value).length < 4096) :
    AnswersOf n (outcome n.labels t ips (Challenges.run ops)).2 := by
  unfold outcome
  split
  · exact answersOf_nil n
  · rename_i t' _
    split_ifs
    · exact answersOf_nil n
    · exact ⟨t', _, answersFor_eq_zone n t' ips _, fun d hd => rtype_of_mem_zone hd,
        fun d hd => length_of_mem_zone (values_run hvalues) hd, length_zone_run ops ips n t'⟩
    · exact answersOf_nil n

theorem wellFormed_of_bare {r : Response} (hquery : r.query = none) (hanswers : r.answers = []) :
    WellFormed r.toBytes := by
  refine ⟨r.message [] [], fits_message (by simp) (by simp) (by simp), ?_⟩
  simp [Response.toBytes_eq, Response.message, Message.octets, Response.queryBytes, hquery,
    hanswers]

/-- A message with one question begins, behind the header, with the octets of a name. -/
theorem exists_name_of_wellFormed {r : Response} {q : Query} (hquery : r.query = some q)
    (h : WellFormed r.toBytes) :
    ∃ (n : Name) (tail tail' : List UInt8), q.queryNameBytes ++ tail = n.octets ++ tail' := by
  obtain ⟨M, hfits, hM⟩ := h
  rw [Response.toBytes_eq, Message.octets] at hM
  -- six fields of two octets stand before the questions on both sides
  obtain ⟨-, hM⟩ := List.append_inj hM (by simp)
  obtain ⟨-, hM⟩ := List.append_inj hM (by simp)
  obtain ⟨hcount, hM⟩ := List.append_inj hM (by simp)
  obtain ⟨-, hM⟩ := List.append_inj hM (by simp)
  obtain ⟨-, hM⟩ := List.append_inj hM (by simp)
  obtain ⟨-, hM⟩ := List.append_inj hM (by simp)
  have hone : M.questions.length = 1 := by
    refine @bigEndian_inj 2 _ _ hfits.questions (by decide) ?_
    simpa [hquery] using hcount
  obtain ⟨qn, hqn⟩ := List.length_eq_one_iff.1 hone
  simp only [hqn, Response.queryBytes, hquery, Query.toBytes, List.flatMap_cons, Question.octets,
    List.flatMap_nil, List.append_nil, List.append_assoc] at hM
  exact ⟨qn.name, _, _, hM.symm⟩

section Answerable

variable {m : List UInt8} {ls : List Label} {t c : UInt16} (h : Answerable m ls t c)
  (ips : ServerIps)

include h

theorem wellFormed_of_answerable (h63 : ∀ l ∈ ls, l.length ≤ 63) {ops : List StoreOp}
    (hvalues : ∀ c ∈ Challenges.sets ops, (utf8 c.value).length < 4096) {r : Response}
    (hr : buildResponse m ips (Challenges.run ops) = .ok (some r)) : WellFormed r.toBytes := by
  obtain ⟨-, hout, q, hquery, hq, -⟩ := response_of_answerable h hr
  have hvalid := validLabels_of_answerable h h63
  obtain ⟨t', ds, hds, htype, hdata, hlen⟩ := answersOf_outcome ⟨ls, hvalid⟩ t ips ops hvalues
  rw [← hout] at hds
  have hbytes := @toBytes_eq_octets r q ⟨ls, hvalid⟩ t' ds hquery hq hds htype
  exact ⟨_, fits_zone hlen hdata, hbytes.symm⟩

theorem not_wellFormed_of_answerable (hlong : ∃ l ∈ ls, 64 ≤ l.length) (cs : Challenges) :
    ∃ r, buildResponse m ips cs = .ok (some r) ∧ ¬ WellFormed r.toBytes := by
  obtain ⟨r, q, hr, -, hquery, hq, -⟩ := buildResponse_of_answerable ips cs h
  refine ⟨r, hr, fun hwf => ?_⟩
  obtain ⟨n, tail, tail', heq⟩ := exists_name_of_wellFormed hquery hwf
  rw [hq.bytes] at heq
  obtain ⟨hlabels, -⟩ := nameOctets_append_inj
    (fun l hl => ⟨List.length_pos_iff.2 (h.asks.ne_nil l hl), h.asks.length_lt l hl⟩)
    (fun l hl => ⟨n.valid.pos l hl, Nat.lt_of_le_of_lt (n.valid.le_63 l hl) (by decide)⟩) heq
  obtain ⟨l, hl, h64⟩ := hlong
  have := n.valid.le_63 l (hlabels ▸ hl)
  omega

end Answerable

/-- With values under 4096 bytes, whatever the store went through: the answer to a message is a
well-formed message exactly when the message is not a standard query for an accepted name with a
label of 64 octets or more. -/
theorem wellFormed_iff (ops : List StoreOp)
    (hvalues : ∀ c ∈ Challenges.sets ops, (utf8 c.value).length < 4096) (m : List UInt8)
    (ips : ServerIps) :
    (∀ bytes, handleRequest m ips (Challenges.run ops) = .ok (some bytes) → WellFormed bytes) ↔
      ¬ ∃ ls t c, Answerable m ls t c ∧ ∃ l ∈ ls, 64 ≤ l.length := by
  constructor
  · rintro hall ⟨ls, t, c, h, hlong⟩
    obtain ⟨r, hr, hnot⟩ := not_wellFormed_of_answerable h ips hlong (Challenges.run ops)
    exact hnot (hall _ (handleRequest_eq_some_iff.2 ⟨r, hr, rfl⟩))
  · intro hshort bytes hbytes
    obtain ⟨r, hr, rfl⟩ := handleRequest_eq_some_iff.1 hbytes
    rcases answerable_or_bare hr with ⟨ls, t, c, h⟩ | hbare
    · refine wellFormed_of_answerable h ips (fun l hl => ?_) hvalues hr
      by_contra h63
      exact hshort ⟨ls, t, c, h, l, hl, by omega⟩
    · exact wellFormed_of_bare hbare.query hbare.answers

theorem wellFormed_iff_acmeQuery : ∃ bytes,
    handleRequest (acmeQuery .txt).toBytes ⟨none, none⟩
      (Challenges.run [.set ⟨"d", "_acme-challenge", "v"⟩]) = .ok (some bytes) ∧
    WellFormed bytes := by
  obtain ⟨r, hr, -⟩ := (acmeQuery .txt).exists_response ⟨none, none⟩
    (Challenges.run [.set ⟨"d", "_acme-challenge", "v"⟩])
  have hbytes := handleRequest_eq_some_iff.2 ⟨r, hr, rfl⟩
  refine ⟨r.toBytes, hbytes, (wellFormed_iff [.set ⟨"d", "_acme-challenge", "v"⟩]
    (by decide +kernel) (acmeQuery .txt).toBytes ⟨none, none⟩).2 ?_ _ hbytes⟩
  rintro ⟨ls, t, c, h, hlong⟩
  obtain ⟨rfl, -⟩ := (answerable_acmeQuery .txt).asks.unique h.asks
  revert hlong
  decide +kernel

/-- A header whose first octet is 64, a label of 15 octets and one of 40, and a pointer to the
header: the label that the pointer leads to has 64 octets. -/
def longLabelMessage : List UInt8 :=
  [64, 0, 0, 0, 0, 1, 0, 0, 0, 0, 0, 0] ++ 15 :: acmeChallengeLabel ++
    40 :: List.replicate 40 97 ++ [192, 0, 0, 0, 16, 0, 1]

theorem asks_longLabelMessage : Asks longLabelMessage
    [(longLabelMessage.drop 13).take 15, (longLabelMessage.drop 29).take 40,
      (longLabelMessage.drop 1).take 64] txtType inClass := by
  have h1 := @LabelEntry.literal longLabelMessage 12 15 rfl (by decide) (by decide +kernel)
  have h2 := @LabelEntry.literal longLabelMessage 28 40 rfl (by decide) (by decide +kernel)
  have h3 := @LabelEntry.pointer longLabelMessage 69 192 0 64 rfl (by decide) rfl (by decide) rfl
    (by decide +kernel)
  have h4 := @LabelEntry.literal longLabelMessage 71 0 rfl (by decide) (by decide +kernel)
  exact ⟨71, 72, .cons h1 (by decide +kernel) (.cons h2 (by decide +kernel)
    (.cons h3 (by decide +kernel) (.nil 71))), h4, rfl, rfl⟩

theorem not_wellFormed_longLabelMessage : ∃ bytes,
    handleRequest longLabelMessage ⟨none, none⟩ (Challenges.run []) = .ok (some bytes) ∧
      ¬ WellFormed bytes := by
  have h : Answerable longLabelMessage _ _ _ :=
    ⟨⟨by decide +kernel, ⟨0, by decide +kernel, by decide⟩, by decide +kernel, by decide +kernel⟩,
      asks_longLabelMessage, by decide +kernel, by decide +kernel⟩
  obtain ⟨r, hr, hnot⟩ := not_wellFormed_of_answerable h ⟨none, none⟩
    ⟨_, List.mem_cons_of_mem _ (List.mem_cons_of_mem _ (List.mem_singleton_self _)),
      by decide +kernel⟩ (Challenges.run [])
  exact ⟨r.toBytes, handleRequest_eq_some_iff.2 ⟨r, hr, rfl⟩, hnot⟩

end AcmeChampion
