import AcmeChampion.Proofs.Challenges
import AcmeChampion.Proofs.Codes
import AcmeChampion.Zone

/-!
# The bytes of a response are a DNS message

A response whose question is a name and whose answers are data of the name has the bytes of a
message (`toBytes_eq_octets`); the answers to a query for an ACME name are the zone's
(`answersFor_eq_zone`).  So the answer to a standard query for such a name decodes to the zone's
records (`decode_handleRequest`).
-/

namespace AcmeChampion

open Bytes Text Wire

def flagOctets (recursionDesired : Bool) (rcode : ResponseCode) : List UInt8 :=
  [0b10000100 ||| (if recursionDesired then 1 else 0), 0b00100000 ||| rcode.toU8]

/-- QR and AA are set, and the low bits are the response code. -/
theorem flagOctets_spec (recursionDesired : Bool) (rcode : ResponseCode) :
    (fromBigEndian (flagOctets recursionDesired rcode)).testBit 15 = true ∧
      (fromBigEndian (flagOctets recursionDesired rcode)).testBit 10 = true ∧
      fromBigEndian (flagOctets recursionDesired rcode) % 16 = rcode.toU8.toNat := by
  cases recursionDesired <;> cases rcode <;> decide +kernel

namespace Response

def flags (r : Response) : UInt16 :=
  UInt16.ofNat (fromBigEndian (flagOctets r.recursionDesired r.rcode))

theorem toNat_flags (r : Response) :
    r.flags.toNat = fromBigEndian (flagOctets r.recursionDesired r.rcode) := by
  have hlt := fromBigEndian_lt (flagOctets r.recursionDesired r.rcode)
  have hlen : (flagOctets r.recursionDesired r.rcode).length = 2 := rfl
  rw [hlen] at hlt
  unfold flags
  rw [UInt16.toNat_ofNat']
  omega

theorem bigEndian_flags (r : Response) :
    bigEndian 2 r.flags.toNat = flagOctets r.recursionDesired r.rcode := by
  rw [toNat_flags]
  exact bigEndian_fromBigEndian (flagOctets r.recursionDesired r.rcode)

def queryBytes (r : Response) : List UInt8 :=
  match r.query with
  | some query => query.toBytes
  | none => []

def message (r : Response) (questions : List Question) (answers : List Record) : Message :=
  ⟨r.transactionId, r.flags, questions, answers, [], []⟩

theorem toBytes_eq (r : Response) : r.toBytes =
    bigEndian 2 r.transactionId.toNat ++ (bigEndian 2 r.flags.toNat ++
      (bigEndian 2 (if r.query.isSome then 1 else 0) ++ (bigEndian 2 r.answers.length ++
        (bigEndian 2 0 ++ (bigEndian 2 0 ++
          (r.queryBytes ++ r.answers.flatMap Answer.toBytes)))))) := by
  have hquery : u16ToBeBytes (if r.query.isSome then 1 else 0)
      = bigEndian 2 (if r.query.isSome then 1 else 0) := by
    split_ifs <;> rfl
  have hzero : u16ToBeBytes 0 = bigEndian 2 0 := rfl
  simp only [toBytes, u16ToBeBytes_ofNat, hquery, hzero, bigEndian_flags, queryBytes, flagOctets,
    List.append_assoc]
  rfl

/-- Behind the header stand the question and the answers. -/
theorem drop_toBytes (r : Response) :
    r.toBytes.drop QueryHeader.length = r.queryBytes ++ r.answers.flatMap Answer.toBytes := by
  rw [toBytes_eq]
  simp [bigEndian, QueryHeader.length]

theorem take_toBytes (r : Response) : r.toBytes.take QueryHeader.length =
    bigEndian 2 r.transactionId.toNat ++ (bigEndian 2 r.flags.toNat ++
      (bigEndian 2 (if r.query.isSome then 1 else 0) ++ (bigEndian 2 r.answers.length ++
        (bigEndian 2 0 ++ bigEndian 2 0)))) := by
  rw [toBytes_eq]
  simp [bigEndian, QueryHeader.length]

theorem length_toBytes_flatMap (r : Response) : r.toBytes.length = QueryHeader.length +
    r.queryBytes.length + (r.answers.flatMap Answer.toBytes).length := by
  rw [toBytes_eq]
  simp only [List.length_append, length_bigEndian, QueryHeader.length]
  omega

theorem length_toBytes (r : Response) : r.toBytes.length = QueryHeader.length +
    r.queryBytes.length + (r.answers.map fun a => a.name.length + 10 + a.value.length).sum := by
  have hanswer : ∀ a : Answer, a.toBytes.length = a.name.length + 10 + a.value.length := by
    intro a
    simp only [Answer.toBytes, u16ToBeBytes, u32ToBeBytes, List.length_append, length_bigEndian]
  rw [length_toBytes_flatMap, List.length_flatMap]
  simp only [hanswer]

theorem length_toBytes_ge (r : Response) : QueryHeader.length ≤ r.toBytes.length := by
  rw [length_toBytes]
  omega

theorem u16At_toBytes (r : Response) : u16At r.toBytes 0 = .ok r.transactionId := by
  rw [toBytes_eq]
  exact u16At_append [] _ r.transactionId

theorem getElem?_toBytes (r : Response) :
    r.toBytes[2]? = some (0b10000100 ||| if r.recursionDesired then 1 else 0) := by
  simp [toBytes, u16ToBeBytes_eq]

theorem qr_message (r : Response) (questions : List Question) (answers : List Record) :
    (r.message questions answers).qr = true ∧ (r.message questions answers).aa = true ∧
      (r.message questions answers).rcode = r.rcode.toU8.toNat := by
  simp only [Message.qr, Message.aa, Message.rcode, message, toNat_flags]
  exact flagOctets_spec r.recursionDesired r.rcode

end Response

theorem Query.toBytes_eq {q : Query} {n : Name} (h : q.Names n.labels) :
    q.toBytes = Question.octets ⟨n, q.queryType, q.queryClass⟩ := by
  simp [toBytes, Question.octets, Name.octets, h.bytes, u16ToBeBytes]

theorem Answer.toBytes_eq {t : ValidQueryType} {d : Rdata} (n : Name) (ht : d.rtype = t.toU16) :
    Answer.toBytes ⟨n.octets, t, d.octets⟩ = (zoneRecord n d).octets := by
  simp only [toBytes, u16ToBeBytes_ofNat, zoneRecord, Record.octets, ht, List.append_assoc]
  rfl

theorem toBytes_eq_octets {r : Response} {q : Query} {n : Name} {t : ValidQueryType}
    {ds : List Rdata} (hquery : r.query = some q) (hq : q.Names n.labels)
    (hanswers : r.answers = ds.map fun d => ⟨n.octets, t, d.octets⟩)
    (ht : ∀ d ∈ ds, d.rtype = t.toU16) :
    r.toBytes = (r.message [⟨n, q.queryType, q.queryClass⟩] (ds.map (zoneRecord n))).octets := by
  have hflat : r.answers.flatMap Answer.toBytes
      = (ds.map (zoneRecord n)).flatMap Record.octets := by
    rw [hanswers, List.flatMap_map, List.flatMap_map]
    exact List.flatMap_congr fun d hd => Answer.toBytes_eq n (ht d hd)
  rw [Response.toBytes_eq, hflat]
  simp [Response.message, Message.octets, Response.queryBytes, hquery, Query.toBytes_eq hq,
    hanswers]

theorem fits_message {r : Response} {questions : List Question} {answers : List Record}
    (hquestions : questions.length ≤ 1) (hanswers : answers.length < 2 ^ 16)
    (hdata : ∀ record ∈ answers, record.data.octets.length < 2 ^ 16) :
    (r.message questions answers).Fits := by
  refine ⟨?_, hanswers, by simp [Response.message], by simp [Response.message], ?_⟩
  · simp only [Response.message]
    omega
  · simpa [Response.message] using hdata

theorem fits_zone {r : Response} {question : Question} {n : Name} {ds : List Rdata}
    (hds : ds.length < 2 ^ 16) (hdata : ∀ d ∈ ds, d.octets.length < 2 ^ 16) :
    (r.message [question] (ds.map (zoneRecord n))).Fits := by
  refine fits_message (by simp) (by simpa using hds) fun record hrecord => ?_
  obtain ⟨d, hd, rfl⟩ := List.mem_map.1 hrecord
  exact hdata d hd

/-! ## The zone -/

theorem octets_soaFor (n : Name) : (soaFor n).octets = nameOctets n.labels ++ nameOctets n.labels ++
    u32ToBeBytes 1 ++ u32ToBeBytes 10800 ++ u32ToBeBytes 3600 ++ u32ToBeBytes 604800 ++
      u32ToBeBytes 30 := by
  simp [soaFor, Rdata.octets, Name.octets, u32ToBeBytes]

theorem answersFor_eq_zone (n : Name) (t : ValidQueryType) (ips : ServerIps) (cs : Challenges) :
    answersFor n.labels t ips cs = (zone cs.list ips n t).map fun d => ⟨n.octets, t, d.octets⟩ := by
  have hreg : cs.registered n.labels = challengesFor cs.list n := rfl
  cases t with
  | a => simp [answersFor, answerData, zone, Rdata.octets, Name.octets]
  | aaaa => simp [answersFor, answerData, zone, Rdata.octets, Name.octets]
  | txt => simp [answersFor, answerData, zone, Rdata.octets, Name.octets, hreg, charStringOctets]
  | ns =>
    simp only [answersFor, answerData, zone, hreg]
    split_ifs <;> simp [Rdata.octets, Name.octets]
  | soa =>
    simp only [answersFor, answerData, zone, hreg]
    split_ifs
    · rfl
    · simp only [List.map_cons, List.map_nil, octets_soaFor]
      rfl

theorem answersFor_eq_nil_iff_zone (n : Name) (t : ValidQueryType) (ips : ServerIps)
    (cs : Challenges) : answersFor n.labels t ips cs = [] ↔ zone cs.list ips n t = [] := by
  rw [answersFor_eq_zone, List.map_eq_nil_iff]

theorem values_run {ops : List StoreOp} {k : ℕ}
    (h : ∀ c ∈ Challenges.sets ops, (utf8 c.value).length < k) :
    ∀ c ∈ (Challenges.run ops).list, (utf8 c.value).length < k :=
  fun c hc => h c ((Challenges.run_sublist_sets ops).subset hc)

theorem length_zone_run (ops : List StoreOp) (ips : ServerIps) (n : Name) (t : ValidQueryType) :
    (zone (Challenges.run ops).list ips n t).length < 2 ^ 16 := by
  have h1 := length_zone_le (Challenges.run ops).list ips n t
  have h2 := Challenges.length_run_le ops
  simp only [Challenges.maxLen] at h2
  omega

/-! ## End to end -/

/-- A value of at most 255 bytes is read back as the one string that it is written as. -/
theorem strings_txt {value : String} (h : (utf8 value).length ≤ 255) :
    Rdata.strings (.txt (charStringOctets [utf8 value])) = some [utf8 value] :=
  charStrings_octets [utf8 value] (by simpa using Nat.lt_succ_of_le h)

theorem strings_zone {challenges : List Challenge} {ips : ServerIps} {n : Name}
    (h : ∀ c ∈ challenges, (utf8 c.value).length < 256) :
    (zone challenges ips n .txt).map Rdata.strings =
      (challengesFor challenges n).map fun c => some [utf8 c.value] := by
  simp only [zone, List.map_map]
  refine List.map_congr_left fun c hc => ?_
  exact strings_txt (Nat.le_of_lt_succ (h c (List.mem_of_mem_filter hc)))

/-- After any registrations and cleanups of values of at most 255 bytes, the answer to a standard
query for an ACME name, of a type the server knows, decodes to the query's identity and question and
the zone's records. -/
theorem decode_handleRequest (ops : List StoreOp) (ips : ServerIps) (q : StandardMessage)
    (t : ValidQueryType) (ht : q.queryType = t.toU16)
    (hacme : Query.startsAcmeChallenge q.name.labels)
    (hvalues : ∀ c ∈ Challenges.sets ops, (utf8 c.value).length ≤ 255) :
    ∃ bytes M, handleRequest q.toBytes ips (Challenges.run ops) = .ok (some bytes) ∧
      decode bytes = some M ∧ M.id = q.id ∧ M.qr = true ∧ M.aa = true ∧
      M.rcode = (if zone (Challenges.run ops).list ips q.name t = [] then 3 else 0) ∧
      M.questions = [q.question] ∧
      (bytes.drop QueryHeader.length).take q.question.octets.length
        = (q.toBytes.drop QueryHeader.length).take q.question.octets.length ∧
      M.answers = (zone (Challenges.run ops).list ips q.name t).map (zoneRecord q.name) ∧
      M.authority = [] ∧ M.additional = [] ∧ (∀ r ∈ M.answers, r.data.rtype = q.queryType) ∧
      (t = .txt → M.answers.map (·.data.strings) =
        (challengesFor (Challenges.run ops).list q.name).map fun c => some [utf8 c.value]) := by
  have hstored := @values_run ops 256 fun c hc => Nat.lt_succ_of_le (hvalues c hc)
  obtain ⟨r, query, hr, hid, hquery, hnames, htype, hclass, hout⟩ :=
    buildResponse_of_answerable ips (Challenges.run ops) q.answerable
  rw [ht, outcome_of_acme hacme] at hout
  have hanswers : r.answers = answersFor q.name.labels t ips (Challenges.run ops) := by
    split_ifs at hout <;> simp_all
  have hcode : r.rcode.toU8.toNat
      = if zone (Challenges.run ops).list ips q.name t = [] then 3 else 0 := by
    rw [← if_congr (answersFor_eq_nil_iff_zone q.name t ips (Challenges.run ops)) rfl rfl]
    split_ifs at hout ⊢ <;> simp_all [ResponseCode.toU8]
  rw [answersFor_eq_zone] at hanswers
  have hbytes := toBytes_eq_octets hquery hnames hanswers fun d hd => rtype_of_mem_zone hd
  rw [htype, hclass] at hbytes
  have hfits := @fits_zone r q.question q.name _ (length_zone_run ops ips q.name t)
    fun d hd => length_of_mem_zone (fun c hc => Nat.lt_trans (hstored c hc) (by omega)) hd
  obtain ⟨hqr, haa, hrcode⟩ := r.qr_message [q.question]
    ((zone (Challenges.run ops).list ips q.name t).map (zoneRecord q.name))
  refine ⟨r.toBytes, r.message [q.question] _, handleRequest_eq_some_iff.2 ⟨r, hr, rfl⟩,
    hbytes ▸ decode_octets _ hfits, ?_, hqr, haa, hrcode.trans hcode, rfl, ?_, rfl, rfl, rfl, ?_,
    ?_⟩
  · exact Except.ok.inj (hid.id.symm.trans q.u16At_id)
  · rw [StandardMessage.toBytes, ← q.length_header, List.drop_left, List.take_left, hbytes,
      q.length_header]
    simp [Message.octets, Response.message, QueryHeader.length, bigEndian,
      StandardMessage.question]
  · simp only [Response.message, List.mem_map, forall_exists_index, and_imp]
    rintro _ d hd rfl
    exact (rtype_of_mem_zone hd).trans ht.symm
  · rintro rfl
    rw [← @strings_zone _ ips q.name hstored, Response.message, List.map_map]
    rfl

theorem decode_handleRequest_txt : ∃ bytes M,
    handleRequest (acmeQuery .txt).toBytes ⟨none, none⟩
      (Challenges.run [.set ⟨"d", "_ACME-challenge", "v"⟩]) = .ok (some bytes) ∧
    decode bytes = some M ∧ M.answers = [zoneRecord acmeName (.txt [1, 118])] := by
  obtain ⟨bytes, M, hbytes, hM, -, -, -, -, -, -, hanswers, -⟩ :=
    decode_handleRequest [.set ⟨"d", "_ACME-challenge", "v"⟩] ⟨none, none⟩ (acmeQuery .txt) .txt rfl
      (by decide +kernel) (by decide +kernel)
  have hzone : zone (Challenges.run [.set ⟨"d", "_ACME-challenge", "v"⟩]).list ⟨none, none⟩
      (acmeQuery .txt).name .txt = [.txt [1, 118]] := by decide +kernel
  exact ⟨bytes, M, hbytes, hM, by rw [hanswers, hzone]; rfl⟩

end AcmeChampion
