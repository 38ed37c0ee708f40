import AcmeChampion.Proofs.Encoding

/-!
# A response is never answered

Every response carries the identity and the RD bit of its message, and QR set, which a server that
is sent it reads first: so a message makes two servers exchange one packet at most
(`handleRequest_reply`).
-/

namespace AcmeChampion

open Bytes Wire

theorem echoes_of_buildResponse {m : List UInt8} {ips : ServerIps} {cs : Challenges} {r : Response}
    (hr : buildResponse m ips cs = .ok (some r)) : Echoes m r := by
  rcases answerable_or_bare hr with ⟨ls, t, c, h⟩ | hbare
  · exact (response_of_answerable h hr).1
  · exact hbare.echoes

/-- The flags octet that is written says what was read, and QR. -/
theorem flags_of_echoes (f : UInt8) (b : Bool) (h : b = decide (f &&& 0b00000001 = 1)) :
    (0b10000100 ||| if b then 1 else 0) &&& (0b00000001 : UInt8) = f &&& 0b00000001 ∧
      (0b10000100 ||| if b then 1 else 0) &&& (0b10000000 : UInt8) = 0b10000000 := by
  have hbit : ∀ n < 256, UInt8.ofNat n &&& 0b00000001 = 0 ∨ UInt8.ofNat n &&& 0b00000001 = 1 := by
    decide +kernel
  have hf : f &&& 0b00000001 = 0 ∨ f &&& 0b00000001 = 1 := by simpa using hbit f.toNat f.toNat_lt
  rcases hf with hf | hf <;> rw [hf] at h <;> subst h <;> rw [hf] <;> decide

/-! ## Answering a response -/

theorem responseForMessage_of_reply {m : List UInt8} (h : QueryHeader.length ≤ m.length) {f : UInt8}
    (hf : m[2]? = some f) (hqr : f &&& 0b10000000 = 0b10000000) :
    responseForMessage m = .ok .dontRespond := by
  obtain ⟨id, f', n, hid, hf', hn⟩ := header_fields h
  obtain rfl : f = f' := Option.some.inj (hf.symm.trans hf')
  unfold responseForMessage
  rw [QueryHeader.fromBytes_eq h hid hf hn, hqr]
  rfl

theorem handleRequest_of_reply {m : List UInt8} (h : QueryHeader.length ≤ m.length) {f : UInt8}
    (hf : m[2]? = some f) (hqr : f &&& 0b10000000 = 0b10000000) (ips : ServerIps)
    (cs : Challenges) : handleRequest m ips cs = .ok none := by
  unfold handleRequest buildResponse
  rw [responseForMessage_of_reply h hf hqr]
  rfl

/-- The packets that servers send when the first is given a message and each other one the packet
before. -/
def packets : List (ServerIps × Challenges) → List UInt8 → Checked (List (List UInt8))
  | [], _ => return []
  | server :: servers, m => do
    match ← handleRequest m server.1 server.2 with
    | none => return []
    | some r => return r :: (← packets servers r)

theorem packets_of_silent {m : List UInt8} (h : ∀ ips cs, handleRequest m ips cs = .ok none) :
    ∀ servers, packets servers m = .ok []
  | [] => rfl
  | server :: servers => by
    unfold packets
    rw [h]
    rfl

/-- A response has a header, with the identity and the RD bit of the message and QR set.  No server
answers it, so it is the last packet of every exchange. -/
theorem handleRequest_reply {m bytes : List UInt8} {ips : ServerIps} {cs : Challenges}
    (h : handleRequest m ips cs = .ok (some bytes)) :
    QueryHeader.length ≤ bytes.length ∧ u16At bytes 0 = u16At m 0 ∧
      (∃ f g, m[2]? = some f ∧ bytes[2]? = some g ∧ g &&& 0b00000001 = f &&& 0b00000001 ∧
        g &&& 0b10000000 = 0b10000000) ∧
      (∀ ips' cs', handleRequest bytes ips' cs' = .ok none) ∧
      ∀ servers, packets ((ips, cs) :: servers) m = .ok [bytes] := by
  obtain ⟨r, hr, rfl⟩ := handleRequest_eq_some_iff.1 h
  have hechoes := echoes_of_buildResponse hr
  obtain ⟨f, hf, hrd⟩ := hechoes.recursionDesired
  obtain ⟨hbit, hqr⟩ := flags_of_echoes f r.recursionDesired hrd
  have hsilent := handleRequest_of_reply r.length_toBytes_ge r.getElem?_toBytes hqr
  refine ⟨r.length_toBytes_ge, r.u16At_toBytes.trans hechoes.id.symm,
    ⟨f, _, hf, r.getElem?_toBytes, hbit, hqr⟩, hsilent, fun servers => ?_⟩
  unfold packets
  rw [h]
  simp only [bind, Except.bind, packets_of_silent hsilent servers]
  rfl

theorem handleRequest_reply_acmeQuery : ∃ bytes,
    handleRequest (acmeQuery .txt).toBytes ⟨none, none⟩ Challenges.new = .ok (some bytes) ∧
      handleRequest bytes ⟨none, none⟩ Challenges.new = .ok none := by
  obtain ⟨r, hr, -⟩ := (acmeQuery .txt).exists_response ⟨none, none⟩ Challenges.new
  have hbytes := handleRequest_eq_some_iff.2 ⟨r, hr, rfl⟩
  exact ⟨r.toBytes, hbytes, (handleRequest_reply hbytes).2.2.2.1 _ _⟩

end AcmeChampion
