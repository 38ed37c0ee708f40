import AcmeChampion.Proofs.Encoding

/-!
# What becomes of a message

A message's header and question, and what is served for its name, say whether it is answered and
with which code (`Verdict`); and the handler does just that (`verdict_spec`).
-/

namespace AcmeChampion

open Bytes Text Wire

/-- What is to become of a message: silence, or a response with a code.  The question is the one
that the parser reads (`Asks`), be it what RFC 1035 reads there or not. -/
inductive Verdict (m : List UInt8) (serverIps : ServerIps) (challenges : Challenges) :
    Option ResponseCode → Prop
  | short (h : m.length < QueryHeader.length) : Verdict m serverIps challenges none
  | reply {f : UInt8} (hlen : QueryHeader.length ≤ m.length) (hf : m[2]? = some f)
      (hqr : 128 ≤ f.toNat) : Verdict m serverIps challenges none
  | opcode {f : UInt8} (hlen : QueryHeader.length ≤ m.length) (hf : m[2]? = some f)
      (hop : 8 ≤ f.toNat) (hqr : f.toNat < 128) :
      Verdict m serverIps challenges (some .refused)
  | questions {f : UInt8} {n : UInt16} (hlen : QueryHeader.length ≤ m.length)
      (hf : m[2]? = some f) (hop : f.toNat < 8) (hn : u16At m 4 = .ok n) (hne : n ≠ 1) :
      Verdict m serverIps challenges (some .formErr)
  | malformed (hstd : StandardQuery m) (hcut : ¬ CutShort m)
      (hname : ¬ ∃ ls t c, Asks m ls t c ∧ Accepted ls) :
      Verdict m serverIps challenges (some .formErr)
  | foreign {ls : List Label} {t c : UInt16} (h : Answerable m ls t c)
      (hnot : ¬ ((∃ t' : ValidQueryType, t = t'.toU16) ∧ Query.startsAcmeChallenge ls)) :
      Verdict m serverIps challenges (some .refused)
  | nothing {ls : List Label} {t : ValidQueryType} {c : UInt16} (h : Answerable m ls t.toU16 c)
      (hacme : Query.startsAcmeChallenge ls) (hnone : SourceEmpty ls t serverIps challenges) :
      Verdict m serverIps challenges (some .nxDomain)
  | records {ls : List Label} {t : ValidQueryType} {c : UInt16} (h : Answerable m ls t.toU16 c)
      (hacme : Query.startsAcmeChallenge ls) (hsome : ¬ SourceEmpty ls t serverIps challenges) :
      Verdict m serverIps challenges (some .noError)

variable {m : List UInt8} {ips : ServerIps} {cs : Challenges}

theorem flags_qr_iff (f : UInt8) : f &&& 0b10000000 = 0 ↔ f.toNat < 128 := by
  have h : ∀ n < 256, UInt8.ofNat n &&& 0b10000000 = 0 ↔ n < 128 := by decide +kernel
  simpa using h f.toNat f.toNat_lt

theorem exists_header {f : UInt8} {n : UInt16} (hlen : QueryHeader.length ≤ m.length)
    (hf : m[2]? = some f) (hn : u16At m 4 = .ok n) :
    ∃ header, QueryHeader.fromBytes m = .ok (.ok header) ∧
      (header.messageType = .reply ↔ 128 ≤ f.toNat) ∧
      (f.toNat < 128 → (header.opcode = .standard ↔ f.toNat < 8)) ∧ header.numQuestions = n := by
  obtain ⟨id, -, -, hid, -, -⟩ := header_fields hlen
  have hqr := flags_qr_iff f
  have hop := flags_lt_iff f
  refine ⟨_, QueryHeader.fromBytes_eq hlen hid hf hn, ?_, fun hquery => ?_, rfl⟩
  · simp only
    split_ifs with h
    · exact iff_of_false (by simp) (by rw [hqr] at h; omega)
    · exact iff_of_true rfl (by rw [hqr] at h; omega)
  · have hzero := hqr.2 hquery
    simp only [hzero, true_and] at hop
    rw [← hop]
    split_ifs with h <;> simp_all

/-- The flags and the number of questions stop the handler first. -/
theorem responseForMessage_of_flags {f : UInt8} {n : UInt16} (hlen : QueryHeader.length ≤ m.length)
    (hf : m[2]? = some f) (hn : u16At m 4 = .ok n) :
    (128 ≤ f.toNat → responseForMessage m = .ok .dontRespond) ∧
    (8 ≤ f.toNat → f.toNat < 128 →
      ∃ r : Response, responseForMessage m = .ok (.earlyExit r) ∧ r.rcode = .refused) ∧
    (f.toNat < 8 → n ≠ 1 →
      ∃ r : Response, responseForMessage m = .ok (.earlyExit r) ∧ r.rcode = .formErr) := by
  obtain ⟨header, hheader, htype, hop, hnum⟩ := exists_header hlen hf hn
  simp only [responseForMessage, hheader, bind, Except.bind, pure, Except.pure, ne_eq]
  refine ⟨fun hqr => ?_, fun hlow hqr => ?_, fun hlow hne => ?_⟩
  · rw [if_pos (htype.2 hqr)]
  · rw [if_neg (mt htype.1 (by omega)), if_pos (mt (hop hqr).1 (by omega))]
    exact ⟨_, rfl, rfl⟩
  · rw [if_neg (mt htype.1 (by omega)), if_neg (not_not.2 ((hop (by omega)).2 hlow)),
      if_pos (hnum ▸ hne)]
    exact ⟨_, rfl, rfl⟩

/-- A question that cannot be read, in a message that is long enough for it. -/
theorem responseForMessage_of_malformed (hstd : StandardQuery m) (hcut : ¬ CutShort m)
    (hname : ¬ ∃ ls t c, Asks m ls t c ∧ Accepted ls) :
    ∃ r : Response, responseForMessage m = .ok (.earlyExit r) ∧ r.rcode = .formErr := by
  obtain ⟨r, -, -, -, hresp⟩ := responseForMessage_of_standard hstd
  rcases hfrom : Query.fromBytes m QueryHeader.length with p | e | ⟨q, cursor⟩
  · exact absurd (Query.fromBytes_error_iff.1 ⟨p, hfrom⟩) hcut
  · exact ⟨_, by rw [hresp, hfrom]; rfl, rfl⟩
  · obtain ⟨ls, hasks, hacc, -⟩ := Query.fromBytes_ok_iff.1 ⟨cursor, hfrom⟩
    exact absurd ⟨ls, _, _, hasks, hacc⟩ hname

/-! ## The handler -/

/-- The code octet of a response; its upper half is constant. -/
def codeOctet (code : ResponseCode) : UInt8 := 0b00100000 ||| code.toU8

theorem getElem?_toBytes_code (r : Response) : r.toBytes[3]? = some (codeOctet r.rcode) := by
  simp [Response.toBytes, u16ToBeBytes_eq, codeOctet]

theorem handleRequest_of_earlyExit {r : Response} (h : responseForMessage m = .ok (.earlyExit r)) :
    handleRequest m ips cs = .ok (some r.toBytes) := by
  unfold handleRequest buildResponse
  rw [h]
  rfl

theorem handleRequest_of_dontRespond (h : responseForMessage m = .ok .dontRespond) :
    handleRequest m ips cs = .ok none := by
  unfold handleRequest buildResponse
  rw [h]
  rfl

theorem handleRequest_of_outcome {ls : List Label} {t c : UInt16} (h : Answerable m ls t c)
    {code : ResponseCode} (hcode : (outcome ls t ips cs).1 = code) :
    ∃ bytes, handleRequest m ips cs = .ok (some bytes) ∧ bytes[3]? = some (codeOctet code) := by
  obtain ⟨r, q, hr, -, -, -, -, -, hout⟩ := buildResponse_of_answerable ips cs h
  refine ⟨r.toBytes, handleRequest_eq_some_iff.2 ⟨r, hr, rfl⟩, ?_⟩
  rw [getElem?_toBytes_code, ← hcode, ← hout]

theorem exists_verdict (hcut : ¬ (StandardQuery m ∧ CutShort m)) :
    ∃ code, Verdict m ips cs code := by
  by_cases hlen : m.length < QueryHeader.length
  · exact ⟨_, .short hlen⟩
  have hlen := Nat.not_lt.1 hlen
  obtain ⟨-, f, n, -, hf, hn⟩ := header_fields hlen
  by_cases hqr : 128 ≤ f.toNat
  · exact ⟨_, .reply hlen hf hqr⟩
  by_cases hop : 8 ≤ f.toNat
  · exact ⟨_, .opcode hlen hf hop (by omega)⟩
  by_cases hone : n = 1
  · have hstd : StandardQuery m := by
      obtain ⟨header, hheader, -, -, hiff⟩ := QueryHeader.fromBytes_of_le hlen
      obtain ⟨header', hheader', htype, hopcode, hnum⟩ := exists_header hlen hf hn
      obtain rfl : header = header' := by simpa [hheader] using hheader'
      refine hiff.1 ⟨?_, (hopcode (by omega)).2 (by omega), hnum.trans hone⟩
      cases hm : header.messageType
      · rfl
      · exact absurd (htype.1 hm) hqr
    by_cases hname : ∃ ls t c, Asks m ls t c ∧ Accepted ls
    · obtain ⟨ls, t, c, hasks, hacc⟩ := hname
      have h : Answerable m ls t c := ⟨hstd, hasks, hacc⟩
      by_cases hacme : (∃ t' : ValidQueryType, t = t'.toU16) ∧ Query.startsAcmeChallenge ls
      · obtain ⟨⟨t, rfl⟩, hacme⟩ := hacme
        by_cases hnone : SourceEmpty ls t ips cs
        · exact ⟨_, .nothing h hacme hnone⟩
        · exact ⟨_, .records h hacme hnone⟩
      · exact ⟨_, .foreign h hacme⟩
    · exact ⟨_, .malformed hstd (fun h => hcut ⟨hstd, h⟩) hname⟩
  · exact ⟨_, .questions hlen hf (by omega) hn hone⟩

/-- A standard query whose question is cut short crashes the handler.  Every other message has a
verdict, and the handler carries it out: it is silent, or responds with the code. -/
theorem verdict_spec (m : List UInt8) (ips : ServerIps) (cs : Challenges) :
    (StandardQuery m ∧ CutShort m → ∃ p, handleRequest m ips cs = .error p) ∧
      (¬ (StandardQuery m ∧ CutShort m) → ∃ code, Verdict m ips cs code) ∧
      (Verdict m ips cs none → handleRequest m ips cs = .ok none) ∧
      ∀ code, Verdict m ips cs (some code) →
        ∃ bytes, handleRequest m ips cs = .ok (some bytes) ∧ bytes[3]? = some (codeOctet code) := by
  have hexit : ∀ {code : ResponseCode}, (∃ r : Response,
      responseForMessage m = .ok (.earlyExit r) ∧ r.rcode = code) →
        ∃ bytes, handleRequest m ips cs = .ok (some bytes) ∧ bytes[3]? = some (codeOctet code) := by
    rintro _ ⟨r, hr, rfl⟩
    exact ⟨r.toBytes, handleRequest_of_earlyExit hr, getElem?_toBytes_code r⟩
  refine ⟨fun ⟨hstd, hcut⟩ => panic_of_cutShort hstd hcut ips cs, exists_verdict, fun h => ?_,
    fun code h => ?_⟩
  · refine handleRequest_of_dontRespond ?_
    cases h with
    | short h =>
      simp [responseForMessage, QueryHeader.fromBytes_of_lt h, bind, Except.bind, pure, Except.pure]
    | reply hlen hf hqr =>
      obtain ⟨-, -, n, -, -, hn⟩ := header_fields hlen
      exact (responseForMessage_of_flags hlen hf hn).1 hqr
  · cases h with
    | opcode hlen hf hop hqr =>
      obtain ⟨-, -, n, -, -, hn⟩ := header_fields hlen
      exact hexit ((responseForMessage_of_flags hlen hf hn).2.1 hop hqr)
    | questions hlen hf hop hn hne =>
      exact hexit ((responseForMessage_of_flags hlen hf hn).2.2 hop hne)
    | malformed hstd hcut hname => exact hexit (responseForMessage_of_malformed hstd hcut hname)
    | foreign h hnot =>
      exact handleRequest_of_outcome h (by rw [outcome_of_not_acme hnot])
    | nothing h hacme hnone =>
      refine handleRequest_of_outcome h ?_
      rw [outcome_of_acme hacme, if_pos ((answersFor_eq_nil_iff _ _ ips cs).2 hnone)]
    | records h hacme hsome =>
      refine handleRequest_of_outcome h ?_
      rw [outcome_of_acme hacme, if_neg (mt (answersFor_eq_nil_iff _ _ ips cs).1 hsome)]

end AcmeChampion
