import AcmeChampion.Proofs.Handler
import AcmeChampion.Proofs.Uncompressed

/-!
# What of a message the result depends on

`responseForMessage` sees a message through its header and its question only.  The header keeps the
identity, three parts of the flags and the number of questions (`fromBytes_congr`), and a question
without pointers is parsed from its own octets; the rest of the message is never answered to
(`handleRequest_congr`).
-/

namespace AcmeChampion

open Bytes Text Wire

/-- The messages have the same identity, QR, opcode, RD and number of questions. -/
structure SameHeader (m m' : List UInt8) : Prop where
  id : u16At m 0 = u16At m' 0
  flags : ∃ f f', m[2]? = some f ∧ m'[2]? = some f' ∧ f &&& 0b11111001 = f' &&& 0b11111001
  questions : u16At m 4 = u16At m' 4

theorem flags_of_masked (f : UInt8) :
    f &&& 0b10000000 = (f &&& 0b11111001) &&& 0b10000000 ∧
      (f >>> (3 : UInt8)) &&& 0b00001111 = ((f &&& 0b11111001) >>> (3 : UInt8)) &&& 0b00001111 ∧
      f &&& 0b00000001 = (f &&& 0b11111001) &&& 0b00000001 := by
  have h : ∀ n < 256,
      UInt8.ofNat n &&& 0b10000000 = (UInt8.ofNat n &&& 0b11111001) &&& 0b10000000 ∧
      (UInt8.ofNat n >>> (3 : UInt8)) &&& 0b00001111
        = ((UInt8.ofNat n &&& 0b11111001) >>> (3 : UInt8)) &&& 0b00001111 ∧
      UInt8.ofNat n &&& 0b00000001 = (UInt8.ofNat n &&& 0b11111001) &&& 0b00000001 := by
    decide +kernel
  simpa using h f.toNat f.toNat_lt

theorem flags_congr {f f' : UInt8} (h : f &&& 0b11111001 = f' &&& 0b11111001) :
    f &&& 0b10000000 = f' &&& 0b10000000 ∧
      (f >>> (3 : UInt8)) &&& 0b00001111 = (f' >>> (3 : UInt8)) &&& 0b00001111 ∧
      f &&& 0b00000001 = f' &&& 0b00000001 := by
  obtain ⟨hqr, hop, hrd⟩ := flags_of_masked f
  rw [hqr, hop, hrd, h]
  obtain ⟨hqr', hop', hrd'⟩ := flags_of_masked f'
  exact ⟨hqr'.symm, hop'.symm, hrd'.symm⟩

variable {m m' : List UInt8}

theorem QueryHeader.fromBytes_congr (h : SameHeader m m') (hm : QueryHeader.length ≤ m.length)
    (hm' : QueryHeader.length ≤ m'.length) : fromBytes m = fromBytes m' := by
  obtain ⟨id, f, n, hid, hf, hn⟩ := header_fields hm
  obtain ⟨g, f', hg, hf', hflags⟩ := h.flags
  obtain rfl : f = g := Option.some.inj (hf.symm.trans hg)
  obtain ⟨hqr, hop, hrd⟩ := flags_congr hflags
  rw [fromBytes_eq hm hid hf hn, fromBytes_eq hm' (h.id ▸ hid) hf' (h.questions ▸ hn), hqr, hop,
    hrd]

theorem u16At_append_left {pre : List UInt8} (a : List UInt8) {i : ℕ} (h : i + 2 ≤ pre.length) :
    u16At (pre ++ a) i = u16At pre i := by
  have hhi : pre[i]? = some pre[i] := List.getElem?_eq_getElem (by omega)
  have hlo : pre[i + 1]? = some pre[i + 1] := List.getElem?_eq_getElem (by omega)
  rw [u16At_of_getElem? hhi hlo]
  refine u16At_of_getElem? ?_ ?_
  · rw [List.getElem?_append_left (by omega), hhi]
  · rw [List.getElem?_append_left (by omega), hlo]

theorem sameHeader_append {pre : List UInt8} (a b : List UInt8)
    (hpre : pre.length = QueryHeader.length) : SameHeader (pre ++ a) (pre ++ b) := by
  have hlen : pre.length = 12 := hpre
  refine ⟨?_, ⟨pre[2], pre[2], ?_, ?_, rfl⟩, ?_⟩
  · rw [u16At_append_left a (by omega), u16At_append_left b (by omega)]
  · rw [List.getElem?_append_left (by omega), List.getElem?_eq_getElem (by omega)]
  · rw [List.getElem?_append_left (by omega), List.getElem?_eq_getElem (by omega)]
  · rw [u16At_append_left a (by omega), u16At_append_left b (by omega)]

theorem Echoes.congr {r r' : Response} (h : Echoes m r) (h' : Echoes m' r')
    (hsame : SameHeader m m') :
    r'.transactionId = r.transactionId ∧ r'.recursionDesired = r.recursionDesired := by
  obtain ⟨f, f', hf, hf', hflags⟩ := hsame.flags
  obtain ⟨g, hg, hrd⟩ := h.recursionDesired
  obtain ⟨g', hg', hrd'⟩ := h'.recursionDesired
  obtain rfl : f = g := Option.some.inj (hf.symm.trans hg)
  obtain rfl : f' = g' := Option.some.inj (hf'.symm.trans hg')
  refine ⟨?_, ?_⟩
  · have hid := h.id
    rw [hsame.id, h'.id] at hid
    exact Except.ok.inj hid
  · rw [hrd, hrd', (flags_congr hflags).2.2]

theorem responseForMessage_congr (hheader : QueryHeader.fromBytes m = QueryHeader.fromBytes m')
    (hquery : Query.fromBytes m QueryHeader.length = Query.fromBytes m' QueryHeader.length) :
    responseForMessage m = responseForMessage m' := by
  unfold responseForMessage
  rw [hheader, hquery]

/-- Outside standard queries the question does not matter. -/
theorem responseForMessage_of_header (h : ¬ StandardQuery m)
    (hheader : QueryHeader.fromBytes m = QueryHeader.fromBytes m') :
    responseForMessage m = responseForMessage m' := by
  unfold responseForMessage
  rw [← hheader]
  by_cases hlen : m.length < QueryHeader.length
  · rw [QueryHeader.fromBytes_of_lt hlen]
    rfl
  · obtain ⟨header, heq, -, -, hiff⟩ := QueryHeader.fromBytes_of_le (Nat.not_lt.1 hlen)
    simp only [heq, bind, Except.bind, pure, Except.pure]
    split_ifs with htype hop hnum
    · rfl
    · rfl
    · rfl
    · refine absurd (hiff.1 ⟨?_, by simpa using hop, by simpa using hnum⟩) h
      cases hm : header.messageType <;> simp_all

theorem standardQuery_congr (hheader : QueryHeader.fromBytes m = QueryHeader.fromBytes m')
    (h : StandardQuery m) (hm' : QueryHeader.length ≤ m'.length) : StandardQuery m' := by
  obtain ⟨header, heq, -, -, hiff⟩ := QueryHeader.fromBytes_of_le h.length_le
  obtain ⟨header', heq', -, -, hiff'⟩ := QueryHeader.fromBytes_of_le hm'
  obtain rfl : header = header' := by simpa [heq, heq'] using hheader
  exact hiff'.1 (hiff.2 h)

/-- Why a question is refused does not matter. -/
theorem responseForMessage_of_error {e e' : QueryError × ℕ}
    (hheader : QueryHeader.fromBytes m = QueryHeader.fromBytes m')
    (hquery : Query.fromBytes m QueryHeader.length = .ok (.error e))
    (hquery' : Query.fromBytes m' QueryHeader.length = .ok (.error e')) :
    responseForMessage m = responseForMessage m' := by
  unfold responseForMessage
  rw [hheader, hquery, hquery']
  rfl

theorem handleRequest_of_responseForMessage (h : responseForMessage m = responseForMessage m')
    (ips : ServerIps) (cs : Challenges) : handleRequest m ips cs = handleRequest m' ips cs := by
  unfold handleRequest buildResponse
  rw [h]

/-- Messages with one and the same question behind headers that agree on the identity, QR, opcode,
RD and the number of questions have the same result, whatever else the headers say and whatever
follows the question, and whether the question is accepted or refused. -/
theorem handleRequest_congr {ls : List Label} {t c : UInt16}
    (hls : ∀ l ∈ ls, 0 < l.length ∧ l.length < 192) (hsame : SameHeader m m')
    (hq : nameOctets ls ++ (u16ToBeBytes t ++ u16ToBeBytes c) <+: m.drop QueryHeader.length)
    (hq' : nameOctets ls ++ (u16ToBeBytes t ++ u16ToBeBytes c) <+: m'.drop QueryHeader.length)
    (ips : ServerIps) (cs : Challenges) : handleRequest m ips cs = handleRequest m' ips cs := by
  obtain ⟨r, hr⟩ := exists_fromBytes_octets t c hls
  have hparse : ∀ {k : List UInt8},
      nameOctets ls ++ (u16ToBeBytes t ++ u16ToBeBytes c) <+: k.drop QueryHeader.length →
        QueryHeader.length ≤ k.length ∧ Query.fromBytes k QueryHeader.length = .ok r := by
    rintro k ⟨post, hpost⟩
    obtain ⟨hk, hlen⟩ := eq_take_append hpost.symm (by simp [nameOctets])
    refine ⟨?_, ?_⟩
    · rw [List.length_take] at hlen
      omega
    · rw [hk]
      simpa using hr _ post hlen
  obtain ⟨hlen, hquery⟩ := hparse hq
  obtain ⟨hlen', hquery'⟩ := hparse hq'
  have hheader := QueryHeader.fromBytes_congr hsame hlen hlen'
  exact handleRequest_of_responseForMessage
    (responseForMessage_congr hheader (hquery.trans hquery'.symm)) ips cs

def bareQuestion : List UInt8 :=
  [0, 0, 0, 0, 0, 1, 0, 0, 0, 0, 0, 0] ++ (challengeName.octets ++ [0, 16, 0, 1])

/-- The question with other flags and counts in front of it and an octet behind it. -/
def crowdedQuestion : List UInt8 :=
  [0, 0, 6, 255, 0, 1, 9, 9, 9, 9, 9, 9] ++ (challengeName.octets ++ [0, 16, 0, 1, 7])

/-- A registered name is asked for. -/
theorem handleRequest_congr_challenge :
    handleRequest bareQuestion ⟨none, none⟩ ⟨[⟨"d", "_acme-challenge.d", "v"⟩]⟩ =
      handleRequest crowdedQuestion ⟨none, none⟩ ⟨[⟨"d", "_acme-challenge.d", "v"⟩]⟩ :=
  @handleRequest_congr bareQuestion crowdedQuestion challengeName.labels txtType inClass
    (by decide +kernel) ⟨rfl, ⟨0, 6, rfl, rfl, rfl⟩, rfl⟩ ⟨[], rfl⟩ ⟨[7], rfl⟩ ⟨none, none⟩
    ⟨[⟨"d", "_acme-challenge.d", "v"⟩]⟩

end AcmeChampion
