import AcmeChampion.Proofs.Encoding
import AcmeChampion.Proofs.RateBound
import AcmeChampion.Proofs.Server

/-!
# The packets that a server sends

Each packet answers a datagram that was handled, with what the store held when it was
(`sent_of_mainLoop`).  So of a standard query for an ACME name it has the zone of the challenges
that connections handled before have registered (`decode_sent`), a challenge whose registration was
handled is served (`registered_is_served`), and no address is sent more packets than the limiter
lets through (`countP_sent_le`).
-/

namespace AcmeChampion

open Text Wire

section

variable {π : Type} {parse : List UInt8 → Except π (Status × Request)} {serverIps : ServerIps}

/-! ## Packets and answers -/

theorem mem_packetsOf_iff {token : Token} {packet : Packet} {r : Responder}
    {items : List (Token × Work)} :
    packet ∈ packetsOf token (Machine.trace (Responder.step parse serverIps) r items) ↔
      ∃ pre d post, items = pre ++ (token, .datagram d) :: post ∧
        (Machine.final (Responder.step parse serverIps) r pre).Answers serverIps d packet := by
  unfold packetsOf
  rw [List.mem_filterMap]
  constructor
  · rintro ⟨e, he, hpacket⟩
    obtain ⟨pre, post, hsplit, hanswer⟩ := (Machine.mem_trace_iff _).1 he
    split_ifs at hpacket with htoken
    have hsome : e.2 = .ok (some packet) := by
      rcases h : e.2 with p | o
      · simp [h, Except.toOption] at hpacket
      · simpa [h, Except.toOption] using hpacket
    rw [hsome] at hanswer
    obtain ⟨d, hd, hanswers⟩ := Responder.step_eq_some_iff.1 hanswer.symm
    refine ⟨pre, d, post, ?_, hanswers⟩
    rw [← hd, ← htoken]
    exact hsplit
  · rintro ⟨pre, d, post, hsplit, hanswers⟩
    refine ⟨((token, .datagram d), .ok (some packet)), ?_, by simp [Except.toOption]⟩
    exact (Machine.mem_trace_iff _).2
      ⟨pre, post, hsplit, (Responder.step_eq_some_iff.2 ⟨d, rfl, hanswers⟩).symm⟩

namespace Server

variable {sends4 sends6 : Option (List (Except IoError Unit))} {happenings : List Happening}
  {server' : Server} {token : Token} {packet : Packet}

/-- A new server has sent nothing, and has nothing waiting. -/
theorem sent_new (token : Token) : ((new sends4 sends6).core.socket token).sent = [] := by
  cases token with
  | udpSocket4 => cases sends4 <;> rfl
  | udpSocket6 => cases sends6 <;> rfl
  | _ => rfl

theorem waiting_new (token : Token) : (new sends4 sends6).waiting token = [] := by
  cases token with
  | udpSocket4 => cases sends4 <;> rfl
  | udpSocket6 => cases sends6 <;> rfl
  | _ => rfl

variable (parse serverIps) in
theorem answers_new (sends4 sends6 : Option (List (Except IoError Unit)))
    (happenings : List Happening) :
    (new sends4 sends6).answers parse serverIps happenings =
      Machine.trace (Responder.step parse serverIps) .new
        ((new sends4 sends6).handed parse serverIps happenings) := rfl

/-- What a socket has sent is some of the responder's packets, in order; all, if no send fails. -/
theorem sent_packetsOf
    (h : mainLoop parse serverIps (new sends4 sends6) happenings = .ok server') (token : Token) :
    (server'.core.socket token).sent.Sublist
        (packetsOf token ((new sends4 sends6).answers parse serverIps happenings)) ∧
      (((new sends4 sends6).core.socket token).Dependable →
        (server'.core.socket token).sent =
          packetsOf token ((new sends4 sends6).answers parse serverIps happenings)) := by
  obtain ⟨-, hsends⟩ := Core.handleAll_ok (EventLoop.core_of_run (run_of_mainLoop h))
  obtain ⟨⟨ps, hsent, hsub, hall⟩, -⟩ := hsends token
  have hsent : (server'.core.socket token).sent =
      ((new sends4 sends6).core.socket token).sent ++ ps := hsent
  rw [sent_new, List.nil_append] at hsent
  rw [hsent]
  exact ⟨hsub, hall⟩

/-- What has sent a packet is a bound socket. -/
theorem bound_of_sent
    (h : mainLoop parse serverIps (new sends4 sends6) happenings = .ok server')
    (hpacket : packet ∈ (server'.core.socket token).sent) : (new sends4 sends6).bound token := by
  rw [← bound_mainLoop h]
  rcases hsocket : server'.dnsSocket token with _ | s
  · simp [core, hsocket] at hpacket
  · cases token with
    | tcpListener => rfl
    | _ => simp [bound, hsocket]

/-- What a bound socket has handed on came to it. -/
theorem mem_arrived (h : mainLoop parse serverIps (new sends4 sends6) happenings = .ok server')
    {pre post : List (Token × Work)} {work : Work} (hbound : (new sends4 sends6).bound token)
    (hsplit : (new sends4 sends6).handed parse serverIps happenings =
      pre ++ (token, work) :: post) :
    work ∈ arrived token happenings := by
  have hwaiting := EventLoop.waiting_of_run (run_of_mainLoop h) token
  rw [reduceOption_arrived happenings hbound] at hwaiting
  have hnone : ((new sends4 sends6).loop.queue token).reduceOption = [] := waiting_new token
  rw [hnone, List.nil_append] at hwaiting
  rw [← hwaiting]
  refine List.mem_append_left _ (List.mem_filterMap.2 ⟨(token, work), ?_, by simp⟩)
  have hmem : (token, work) ∈ (new sends4 sends6).handed parse serverIps happenings := by
    rw [hsplit]
    simp
  exact hmem

/-- A packet that has been sent answers a datagram that was handled, as the responder does that has
done the work before it. -/
theorem answered_of_sent
    (h : mainLoop parse serverIps (new sends4 sends6) happenings = .ok server')
    (hpacket : packet ∈ (server'.core.socket token).sent) :
    ∃ pre d post, (new sends4 sends6).handed parse serverIps happenings =
        pre ++ (token, .datagram d) :: post ∧
      (Responder.after parse serverIps pre).Answers serverIps d packet := by
  have hmem := (sent_packetsOf h token).1.subset hpacket
  rw [answers_new] at hmem
  exact mem_packetsOf_iff.1 hmem

/-- Every packet that a server has sent goes to where a datagram came from that came to the same
socket, from an address that can be answered, that the limiter let through after the requests before
it; and is the response to it with the challenges that the operations of the connections before it
have left. -/
theorem sent_of_mainLoop
    (h : mainLoop parse serverIps (new sends4 sends6) happenings = .ok server')
    (hpacket : packet ∈ (server'.core.socket token).sent) :
    ∃ pre d post, (new sends4 sends6).handed parse serverIps happenings =
        pre ++ (token, .datagram d) :: post ∧
      .datagram d ∈ arrived token happenings ∧ packet.2 = d.srcAddr ∧
      validReturnAddress d.srcAddr ∧
      ((Machine.final RateLimiter.step .new (Responder.requests pre)).increment d.srcAddr.ip
        d.now).1 = .ok ∧
      handleRequest d.message serverIps (Challenges.run (Responder.ops parse pre)) =
        .ok (some packet.1) := by
  obtain ⟨pre, d, post, hsplit, hvalid, hpasses, hresponse, haddr⟩ := answered_of_sent h hpacket
  rw [Responder.rateLimiter_after] at hpasses
  rw [Responder.challenges_after] at hresponse
  have harrived := mem_arrived h (bound_of_sent h hpacket) hsplit
  exact ⟨pre, d, post, hsplit, harrived, haddr, hvalid, hpasses, hresponse⟩

theorem sent_of_mainLoop_registration : ∃ bytes server' pre post,
    mainLoop (parseAmong [acmeRequest]) ⟨none, none⟩ (new (some []) none) registration =
      .ok server' ∧
    (new (some []) none).handed (parseAmong [acmeRequest]) ⟨none, none⟩ registration =
      pre ++ (.udpSocket4, .datagram asking) :: post ∧
    handleRequest asking.message ⟨none, none⟩
      (Challenges.run (Responder.ops (parseAmong [acmeRequest]) pre)) = .ok (some bytes) := by
  obtain ⟨bytes, -, hrun⟩ := mainLoop_registration
  obtain ⟨pre, d, post, hsplit, harrived, -, -, -, hresponse⟩ :=
    @sent_of_mainLoop _ _ _ _ _ _ _ .udpSocket4 (bytes, .v4 1 53) hrun (List.mem_singleton_self _)
  obtain rfl : d = asking := Work.datagram.inj (List.mem_singleton.1 harrived)
  exact ⟨bytes, _, pre, post, hrun, hsplit, hresponse⟩

end Server

/-! ## What the packets say -/

/-- In a whole request, a header's value is a part of what is parsed, behind a name and a colon. -/
def Slices (parse : List UInt8 → Except π (Status × Request)) : Prop :=
  ∀ bytes offset req, parse bytes = .ok (.complete offset, req) →
    ∀ header ∈ req.headers, header.value.length < bytes.length

theorem length_read_le {ε : Type} {stream : Stream ε} {len : ℕ} {bytes : List UInt8}
    (h : (stream.read len).1 = .ok bytes) : bytes.length ≤ len := by
  unfold Stream.read at h
  split at h
  · obtain rfl : [] = bytes := Except.ok.inj h
    exact Nat.zero_le len
  · cases h
  · split_ifs at h with hle
    · exact Except.ok.inj h ▸ hle
    · rw [← Except.ok.inj h]
      exact List.length_take_le _ _

/-- A value that is registered came in the buffer. -/
theorem length_of_op (hparse : Slices parse) {work : Work} {c : Challenge}
    (h : work.op parse = some (.set c)) : (utf8 c.value).length < bufLen := by
  rcases work with stream | d
  · by_cases hreq : ∃ req, Receives parse stream bufLen req
    · obtain ⟨req, hreceives⟩ := hreq
      rw [Work.op_of_receives hreceives] at h
      obtain ⟨-, hnames⟩ := Request.performs_of_op h
      obtain ⟨bytes, offset, hread, hbytes⟩ := hreceives
      have hheader := hnames.value
      simp only [Request.header, Option.map_eq_some_iff] at hheader
      obtain ⟨header, hfind, hvalue⟩ := hheader
      have hlt := hparse bytes offset req hbytes header (List.mem_of_find?_eq_some hfind)
      rw [hvalue] at hlt
      exact Nat.lt_of_lt_of_le hlt (length_read_le hread)
    · rw [Work.op_of_not_receives hreq] at h
      cases h
  · cases h

theorem length_of_ops (hparse : Slices parse) {items : List (Token × Work)} {c : Challenge}
    (h : c ∈ Challenges.sets (Responder.ops parse items)) : (utf8 c.value).length < bufLen := by
  obtain ⟨op, hop, hset⟩ := List.mem_filterMap.1 h
  obtain ⟨item, -, hitem⟩ := List.mem_filterMap.1 hop
  cases op with
  | set d =>
    obtain rfl : d = c := Option.some.inj hset
    exact length_of_op hparse hitem
  | cleanup d => cases hset

/-- The response to a standard query for an ACME name, of a type that the server knows, decodes to
the zone's records. -/
theorem decode_answer {ops : List StoreOp}
    (hvalues : ∀ c ∈ Challenges.sets ops, (utf8 c.value).length < bufLen) {q : StandardMessage}
    {t : ValidQueryType} (ht : q.queryType = t.toU16)
    (hacme : Query.startsAcmeChallenge q.name.labels) {bytes : List UInt8}
    (h : handleRequest q.toBytes serverIps (Challenges.run ops) = .ok (some bytes)) :
    ∃ M, decode bytes = some M ∧ M.id = q.id ∧ M.questions = [q.question] ∧
      M.answers = (zone (Challenges.run ops).list serverIps q.name t).map (zoneRecord q.name) := by
  obtain ⟨r, hr, rfl⟩ := handleRequest_eq_some_iff.1 h
  obtain ⟨hechoes, hout, query, hquery, hnames, htype, hclass⟩ :=
    response_of_answerable q.answerable hr
  rw [ht, outcome_of_acme hacme] at hout
  have hanswers : r.answers = answersFor q.name.labels t serverIps (Challenges.run ops) := by
    split_ifs at hout <;> simp_all
  rw [answersFor_eq_zone] at hanswers
  have hbytes := toBytes_eq_octets hquery hnames hanswers fun d hd => rtype_of_mem_zone hd
  rw [htype, hclass] at hbytes
  have hfits := @fits_zone r q.question q.name _ (length_zone_run ops serverIps q.name t)
    fun d hd => length_of_mem_zone (values_run hvalues) hd
  refine ⟨r.message [q.question] _, hbytes ▸ decode_octets _ hfits, ?_, rfl, rfl⟩
  exact Except.ok.inj (hechoes.id.symm.trans q.u16At_id)

/-- A TXT query for an ACME name is answered, and the value of each challenge for the name can be
read in the answer, if it has at most 255 bytes. -/
theorem exists_txt_answer (hparse : Slices parse) (items : List (Token × Work))
    {q : StandardMessage} (htxt : q.queryType = ValidQueryType.txt.toU16)
    (hacme : Query.startsAcmeChallenge q.name.labels) :
    ∃ bytes M, handleRequest q.toBytes serverIps (Challenges.run (Responder.ops parse items)) =
        .ok (some bytes) ∧ decode bytes = some M ∧ M.id = q.id ∧
      ∀ c ∈ (Challenges.run (Responder.ops parse items)).list, (utf8 c.value).length ≤ 255 →
        eqIgnoreAsciiCase (utf8 c.name) (dotted q.name.labels) →
        ∃ data, zoneRecord q.name data ∈ M.answers ∧ data.strings = some [utf8 c.value] := by
  obtain ⟨r, hr, -⟩ := q.exists_response serverIps (Challenges.run (Responder.ops parse items))
  have hresponse := handleRequest_eq_some_iff.2 ⟨r, hr, rfl⟩
  obtain ⟨M, hM, hid, -, hanswers⟩ :=
    decode_answer (fun c hc => length_of_ops hparse hc) htxt hacme hresponse
  refine ⟨r.toBytes, M, hresponse, hM, hid, fun c hc hvalue hname => ⟨_, ?_, strings_txt hvalue⟩⟩
  rw [hanswers]
  exact List.mem_map_of_mem (List.mem_map.2 ⟨c, List.mem_filter.2 ⟨hc, hname⟩, rfl⟩)

/-- A stored challenge was registered by a connection, and no connection has cleaned it up since. -/
theorem exists_registration {items : List (Token × Work)} {c : Challenge}
    (hc : c ∈ (Challenges.run (Responder.ops parse items)).list) :
    ∃ before item after, items = before ++ item :: after ∧ item.2.op parse = some (.set c) ∧
      .cleanup c ∉ Responder.ops parse after := by
  obtain ⟨pre, post, hops, hclean⟩ := Challenges.exists_set_of_mem_run hc
  obtain ⟨before, rest, rfl, hpre, hrest⟩ := List.filterMap_eq_append_iff.1 hops
  obtain ⟨skipped, item, after, rfl, hskipped, hitem, hafter⟩ := List.filterMap_eq_cons_iff.1 hrest
  refine ⟨before ++ skipped, item, after, by simp, hitem, ?_⟩
  unfold Responder.ops
  rwa [hafter]

namespace Server

variable {sends4 sends6 : Option (List (Except IoError Unit))} {happenings : List Happening}
  {server' : Server} {token : Token} {packet : Packet}

theorem slices_parseAmong (reqs : List Request) : Slices (parseAmong reqs) := by
  intro bytes offset req h header hheader
  unfold parseAmong at h
  split at h
  · rename_i req' hfind
    obtain ⟨-, rfl⟩ := Prod.mk.inj (Except.ok.inj h)
    have hprefix := List.find?_some hfind
    have hle := (List.isPrefixOf_iff_prefix.1 hprefix).length_le
    obtain ⟨before, after, hsplit⟩ := List.append_of_mem hheader
    have hlen : header.value.length < req'.head.length := by
      simp only [Request.head, hsplit, List.flatMap_append, List.flatMap_cons, List.length_append]
      have hend : (utf8 "\r\n").length = 2 := by decide
      omega
    omega
  · split_ifs at h
    cases h

theorem handed_registration :
    (new (some []) none).handed (parseAmong [acmeRequest]) ⟨none, none⟩ registration =
      [(.tcpListener, .connection (client acmeRequest).stream),
        (.udpSocket4, .datagram asking)] := by
  obtain ⟨bytes, -, hanswer⟩ := step_answer
  have hquery : (registered .new [.ok asking] []).handed (parseAmong [acmeRequest]) ⟨none, none⟩
      [.event ⟨.udpSocket4, true⟩] = [(.udpSocket4, .datagram asking)] := by
    rw [handed_cons hanswer]
    show (EventLoop.drained (Core.handle (parseAmong [acmeRequest]) ⟨none, none⟩ .udpSocket4)
      [some (.datagram asking)] (registered .new [.ok asking] []).core).map
        (Token.udpSocket4, ·) ++ [] = _
    rw [EventLoop.drained_singleton]
    rfl
  have harrive : (registered .new [] []).handed (parseAmong [acmeRequest]) ⟨none, none⟩
      [.datagram4 (.ok asking), .event ⟨.udpSocket4, true⟩] =
        [(.udpSocket4, .datagram asking)] := by
    rw [handed_cons rfl]
    exact hquery
  have hregister : { new (some []) none with httpListener := [.ok (client acmeRequest)] }.handed
      (parseAmong [acmeRequest]) ⟨none, none⟩ [.event ⟨.tcpListener, true⟩,
        .datagram4 (.ok asking), .event ⟨.udpSocket4, true⟩] =
      [(.tcpListener, .connection (client acmeRequest).stream),
        (.udpSocket4, .datagram asking)] := by
    rw [handed_cons step_register, harrive]
    show (EventLoop.drained (Core.handle (parseAmong [acmeRequest]) ⟨none, none⟩ .tcpListener)
      [some (.connection (client acmeRequest).stream)] (new (some []) none).core).map
        (Token.tcpListener, ·) ++ _ = _
    rw [EventLoop.drained_singleton]
    rfl
  unfold registration
  rw [handed_cons rfl, handed_cons rfl]
  exact hregister

/-- A challenge of at most 255 bytes whose registration was handled, with no cleanup of it and fewer
than `maxLen` registrations handled since, can be read in the packet that answers a standard TXT
query for its name, which is sent if the query's address can be answered and is let through, and
sending does not fail. -/
theorem registered_is_served (hparse : Slices parse)
    (h : mainLoop parse serverIps (new sends4 sends6) happenings = .ok server')
    {pre mid post : List (Token × Work)} {stream : Stream IoError} {d : Datagram}
    (hsplit : (new sends4 sends6).handed parse serverIps happenings =
      pre ++ (.tcpListener, .connection stream) :: mid ++ (token, .datagram d) :: post)
    {req : Request} {c : Challenge} (hreq : Receives parse stream bufLen req)
    (hset : req.Performs (.set c)) (hvalue : (utf8 c.value).length ≤ 255)
    (hclean : .cleanup c ∉ Responder.ops parse mid)
    (hroom : (Challenges.sets (Responder.ops parse mid)).length < Challenges.maxLen)
    {q : StandardMessage} (hq : d.message = q.toBytes)
    (htxt : q.queryType = ValidQueryType.txt.toU16)
    (hacme : Query.startsAcmeChallenge q.name.labels)
    (hname : eqIgnoreAsciiCase (utf8 c.name) (dotted q.name.labels))
    (hvalid : validReturnAddress d.srcAddr)
    (hpasses : ((Machine.final RateLimiter.step .new (Responder.requests (pre ++ mid))).increment
      d.srcAddr.ip d.now).1 = .ok)
    (hsends : ((new sends4 sends6).core.socket token).Dependable) :
    ∃ bytes M, (bytes, d.srcAddr) ∈ (server'.core.socket token).sent ∧ decode bytes = some M ∧
      M.id = q.id ∧
      ∃ data, zoneRecord q.name data ∈ M.answers ∧ data.strings = some [utf8 c.value] := by
  have hbefore : Responder.ops parse (pre ++ (.tcpListener, .connection stream) :: mid) =
      Responder.ops parse pre ++ .set c :: Responder.ops parse mid := by
    have hop := (Work.op_of_receives hreq).trans (Request.op_of_performs hset)
    simp [Responder.ops, hop]
  have hrequests : Responder.requests (pre ++ (.tcpListener, .connection stream) :: mid) =
      Responder.requests (pre ++ mid) := by
    simp [Responder.requests, Work.request]
  -- the store has the challenge when the query is handled
  obtain ⟨older, newer, hlist, -⟩ := Challenges.run_eq_of_set _ _ c hclean hroom
  rw [← hbefore] at hlist
  obtain ⟨bytes, M, hresponse, hM, hid, hanswers⟩ := @exists_txt_answer _ _ serverIps hparse
    (pre ++ (.tcpListener, .connection stream) :: mid) q htxt hacme
  refine ⟨bytes, M, ?_, hM, hid, hanswers c (by simp [hlist]) hvalue hname⟩
  rw [(sent_packetsOf h token).2 hsends]
  refine mem_packetsOf_iff.2 ⟨_, d, post, hsplit, hvalid, ?_, ?_, rfl⟩
  · have hlimiter := @Responder.rateLimiter_after π parse serverIps
      (pre ++ (.tcpListener, .connection stream) :: mid)
    rw [hrequests] at hlimiter
    exact hlimiter ▸ hpasses
  · have hchallenges := @Responder.challenges_after π parse serverIps
      (pre ++ (.tcpListener, .connection stream) :: mid)
    rw [hq]
    exact hchallenges ▸ hresponse

theorem registered_is_served_registration : ∃ server' bytes M,
    mainLoop (parseAmong [acmeRequest]) ⟨none, none⟩ (new (some []) none) registration =
      .ok server' ∧
    (bytes, .v4 1 53) ∈ (server'.core.socket .udpSocket4).sent ∧ decode bytes = some M ∧
    ∃ data, zoneRecord acmeName data ∈ M.answers ∧ data.strings = some [utf8 "v"] := by
  obtain ⟨_, -, hrun⟩ := mainLoop_registration
  have hreceives : Receives (parseAmong [acmeRequest]) (client acmeRequest).stream bufLen
      acmeRequest :=
    ⟨acmeRequest.head, acmeRequest.head.length, rfl, by decide +kernel⟩
  have hset : acmeRequest.Performs (.set ⟨"d", "_acme-challenge", "v"⟩) :=
    ⟨rfl, ⟨"d", rfl, by decide⟩, ⟨"_acme-challenge", rfl, by decide⟩, rfl⟩
  have hsplit : (new (some []) none).handed (parseAmong [acmeRequest]) ⟨none, none⟩ registration =
      [] ++ (.tcpListener, .connection (client acmeRequest).stream) :: [] ++
        (.udpSocket4, .datagram asking) :: [] := handed_registration
  obtain ⟨bytes, M, hsent, hM, -, hanswers⟩ := registered_is_served (q := acmeQuery .txt)
    (slices_parseAmong [acmeRequest]) hrun hsplit hreceives hset (by decide) (by decide)
    (by decide) rfl rfl
    (by decide +kernel) (by decide +kernel) (by decide) (by decide +kernel)
    (by simp [UdpSocket.Dependable, core, dnsSocket, new])
  exact ⟨_, bytes, M, hrun, hsent, hM, hanswers⟩

end Server

/-! ## How many packets an address is sent -/

theorem countP_le_add {α : Type} {p q r : α → Bool} (h : ∀ x, p x → q x ∨ r x) :
    ∀ l : List α, l.countP p ≤ l.countP q + l.countP r
  | [] => by simp
  | x :: l => by
    have ih := countP_le_add h l
    have hx : (if p x then 1 else 0) ≤ (if q x then 1 else 0) + (if r x then 1 else 0) := by
      cases hp : p x
      · exact Nat.zero_le _
      · rcases h x hp with hq | hr
        · simp [hq]
        · simp [hr]
    simp only [List.countP_cons]
    omega

/-- The limiter lets the address through. -/
def passed (a : IpAddr) (e : RateLimiter.Request × RateLimitResult) : Bool :=
  e.1.1 = a ∧ e.2 = .ok

section

variable {rs : List RateLimiter.Request} (hmono : (rs.map Prod.snd).Pairwise (· ≤ ·)) (t : ℤ)
  (a : IpAddr)
include hmono

/-- In one window an address is let through at most twice a full count. -/
theorem countP_passes_le_full :
    (Machine.trace RateLimiter.step .new rs).countP (RateLimiter.passes t a) ≤
      2 * RateLimiter.fullCount := by
  rcases rs with _ | ⟨r, rs⟩
  · simp [Machine.trace]
  have hpairs : (r :: r :: rs).Pairwise fun r r' => r.2 ≤ r'.2 := by
    rw [List.pairwise_map] at hmono
    refine List.pairwise_cons.2 ⟨fun r' hr' => ?_, hmono⟩
    rcases List.mem_cons.1 hr' with rfl | hr'
    · exact Int.le_refl _
    · exact (List.pairwise_cons.1 hmono).1 r' hr'
  have hle := Machine.countP_trace_le RateLimiter.step (RateLimiter.budgetAt t a)
    (fun l r => @RateLimiter.counting_step l r)
    (fun l r hl => @RateLimiter.budgetAt_step t a l r hl)
    (fun l r r' _ h => @RateLimiter.budgetAt_mono t a l r r' h) (r :: rs) .new r
    RateLimiter.counting_new hpairs
  have hbudget := RateLimiter.budget_le t (RateLimiter.new.entry a)
  refine Nat.le_trans hle ?_
  simp only [RateLimiter.budgetAt]
  split_ifs <;> omega

/-- In `k` windows, one behind the other, at most `k` times as often. -/
theorem countP_passed_le (k : ℕ)
    (hspan : ∀ r ∈ rs, t ≤ r.2 ∧ r.2 < t + k * RateLimiter.windowSecs) :
    (Machine.trace RateLimiter.step .new rs).countP (passed a) ≤
      k * (2 * RateLimiter.fullCount) := by
  have hwindows : ∀ k : ℕ, (Machine.trace RateLimiter.step .new rs).countP
      (fun e => passed a e && decide (t ≤ e.1.2 ∧ e.1.2 < t + k * RateLimiter.windowSecs)) ≤
        k * (2 * RateLimiter.fullCount) := by
    intro k
    induction k with
    | zero =>
      refine Nat.le_of_eq ?_
      rw [List.countP_eq_zero.2]
      · omega
      · intro e _
        simp only [Bool.and_eq_true, decide_eq_true_eq, Nat.cast_zero]
        omega
    | succ k ih =>
      have hlast := countP_passes_le_full hmono (t + k * RateLimiter.windowSecs) a
      have hsplit := @countP_le_add _
        (fun e => passed a e &&
          decide (t ≤ e.1.2 ∧ e.1.2 < t + (k + 1 : ℕ) * RateLimiter.windowSecs))
        (fun e => passed a e && decide (t ≤ e.1.2 ∧ e.1.2 < t + k * RateLimiter.windowSecs))
        (RateLimiter.passes (t + k * RateLimiter.windowSecs) a)
        (by
          intro e he
          simp only [passed, RateLimiter.passes, Bool.and_eq_true, decide_eq_true_eq, Nat.cast_add,
            Nat.cast_one] at he ⊢
          obtain ⟨⟨ha, hok⟩, hfrom, hto⟩ := he
          rw [Int.add_mul] at hto
          by_cases hearly : e.1.2 < t + k * RateLimiter.windowSecs
          · exact .inl ⟨⟨ha, hok⟩, hfrom, hearly⟩
          · exact .inr ⟨ha, hok, by omega, by omega⟩)
        (Machine.trace RateLimiter.step .new rs)
      rw [Nat.succ_mul]
      omega
  refine Nat.le_trans (Nat.le_of_eq (List.countP_congr fun e he => ?_)) (hwindows k)
  obtain ⟨pre, post, hsplit, -⟩ := (Machine.mem_trace_iff _).1 he
  have hmem : e.1 ∈ rs := by
    rw [hsplit]
    simp
  simp [hspan e.1 hmem]

end

def isTo (a : IpAddr) (packet : Packet) : Bool := packet.2.ip = a

/-- A packet to the address answers the work. -/
def sentTo (a : IpAddr) (e : (Token × Work) × Checked (Option Packet)) : Bool :=
  e.2.toOption.join.any (isTo a)

theorem countP_sentTo_le (r : Responder) (items : List (Token × Work)) (a : IpAddr) :
    (Machine.trace (Responder.step parse serverIps) r items).countP (sentTo a) ≤
      (Machine.trace RateLimiter.step r.rateLimiter (Responder.requests items)).countP
        (passed a) := by
  refine Machine.countP_trace_part _ (R := Responder.rateLimiter) Responder.rateLimiter_step ?_
    items r
  intro r item hsent
  rcases hanswer : (r.step parse serverIps item).1 with p | _ | packet
  · simp [sentTo, hanswer, Except.toOption] at hsent
  · simp [sentTo, hanswer, Except.toOption] at hsent
  · obtain ⟨d, hd, hanswers⟩ := Responder.step_eq_some_iff.1 hanswer
    have ha : d.srcAddr.ip = a := by
      simpa [sentTo, isTo, hanswer, Except.toOption, hanswers.srcAddr] using hsent
    refine ⟨(d.srcAddr.ip, d.now), ?_, ?_⟩
    · simp [hd, Work.request, hanswers.valid]
    · simp [passed, ha, RateLimiter.step, ← hanswers.passes]

/-- The packets of two sockets are answers to different work. -/
theorem countP_packetsOf_le (a : IpAddr) {token token' : Token} (h : token ≠ token') :
    ∀ answers : List ((Token × Work) × Checked (Option Packet)),
      (packetsOf token answers).countP (isTo a) + (packetsOf token' answers).countP (isTo a) ≤
        answers.countP (sentTo a)
  | [] => by simp [packetsOf]
  | e :: answers => by
    have ih := countP_packetsOf_le a h answers
    rw [packetsOf_cons token, packetsOf_cons token', List.countP_append, List.countP_append,
      List.countP_cons]
    have hone : (packetsOf token [e]).countP (isTo a) + (packetsOf token' [e]).countP (isTo a) ≤
        if sentTo a e then 1 else 0 := by
      obtain ⟨⟨token1, work⟩, p | _ | packet⟩ := e
      · simp [packetsOf, Except.toOption]
      · simp [packetsOf, Except.toOption]
      · by_cases h1 : token1 = token
        · subst h1
          simp [packetsOf, sentTo, isTo, Except.toOption, h, List.countP_cons]
        · by_cases h2 : token1 = token'
          · subst h2
            simp [packetsOf, sentTo, isTo, Except.toOption, h1, List.countP_cons]
          · simp [packetsOf, sentTo, isTo, Except.toOption, h1, h2]
    omega

namespace Server

variable {sends4 sends6 : Option (List (Except IoError Unit))} {happenings : List Happening}
  {server' : Server}

/-- While the clock does not go back, a server sends an address at most `2 * (rateLimit - 1)`
packets for each window of its run, over both sockets, whatever comes from whom and whenever it is
announced. -/
theorem countP_sent_le
    (h : mainLoop parse serverIps (new sends4 sends6) happenings = .ok server')
    (hmono : ((Responder.requests ((new sends4 sends6).handed parse serverIps happenings)).map
      Prod.snd).Pairwise (· ≤ ·)) (t : ℤ) (k : ℕ)
    (hspan : ∀ r ∈ Responder.requests ((new sends4 sends6).handed parse serverIps happenings),
      t ≤ r.2 ∧ r.2 < t + k * RateLimiter.windowSecs) (a : IpAddr) :
    ((server'.core.socket .udpSocket4).sent ++ (server'.core.socket .udpSocket6).sent).countP
      (isTo a) ≤ k * (2 * (RateLimiter.rateLimit.toNat - 1)) := by
  have hsent4 : (server'.core.socket .udpSocket4).sent.countP (isTo a) ≤ _ :=
    (sent_packetsOf h .udpSocket4).1.countP_le
  have hsent6 : (server'.core.socket .udpSocket6).sent.countP (isTo a) ≤ _ :=
    (sent_packetsOf h .udpSocket6).1.countP_le
  have hpackets := @countP_packetsOf_le a .udpSocket4 .udpSocket6 (by simp)
    ((new sends4 sends6).answers parse serverIps happenings)
  have hsentTo := @countP_sentTo_le π parse serverIps .new
    ((new sends4 sends6).handed parse serverIps happenings) a
  have hpassed := countP_passed_le hmono t a k hspan
  rw [answers_new] at hpackets hsent4 hsent6
  rw [List.countP_append]
  exact Nat.le_trans (by omega) (Nat.le_trans hsentTo hpassed)

theorem countP_sent_le_registration : ∃ server',
    mainLoop (parseAmong [acmeRequest]) ⟨none, none⟩ (new (some []) none) registration =
      .ok server' ∧
    ((server'.core.socket .udpSocket4).sent ++ (server'.core.socket .udpSocket6).sent).countP
      (isTo (.v4 1)) ≤ 198 := by
  obtain ⟨_, -, hrun⟩ := mainLoop_registration
  have hrequests : Responder.requests ((new (some []) none).handed (parseAmong [acmeRequest])
      ⟨none, none⟩ registration) = [(.v4 1, 0)] := by
    rw [handed_registration]
    decide
  exact ⟨_, hrun, countP_sent_le hrun (by rw [hrequests]; decide) 0 1 (by rw [hrequests]; decide)
    (.v4 1)⟩

end Server

end

end AcmeChampion
