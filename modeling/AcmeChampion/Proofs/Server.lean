import AcmeChampion.Lib.EventLoop
import AcmeChampion.Proofs.Codes
import AcmeChampion.Proofs.Responder

/-!
# The server refines the responder

The main loop is an event loop whose handler is the responder, with the sending sides of the sockets
beside it (`loop_mainLoop`).  So whatever the order of arrivals and events, what is handled is of
each socket what came to it, in order, and the server ends as the responder does that is given this
work piece by piece, and has sent packets that the responder answers (`mainLoop_refines`).
-/

namespace AcmeChampion

open EventLoop Text

/-- The responder, and the sending side of each socket. -/
@[ext]
structure Core where
  responder : Responder
  socket : Token → UdpSocket

section

variable {π : Type} (parse : List UInt8 → Except π (Status × Request)) (serverIps : ServerIps)

/-- A piece of work, with its packet sent on the socket that the work came on. -/
def Core.handle (token : Token) (core : Core) (work : Work) : Except Stop Core :=
  match core.responder.step parse serverIps (token, work) with
  | (.error panic, _) => .error (.panic panic)
  | (.ok none, responder) => .ok { core with responder }
  | (.ok (some packet), responder) =>
    let socket := core.socket token
    .ok { responder, socket := Function.update core.socket token
            (sendLoop packet.1 packet.2 socket.sent socket.sends) }

namespace Server

def dnsSocket (server : Server) : Token → Option DnsSocket
  | .udpSocket4 => server.dnsSocket4
  | .udpSocket6 => server.dnsSocket6
  | _ => none

/-- The sockets that events are handled for. -/
def bound (server : Server) : Token → Bool
  | .tcpListener => true
  | token => (server.dnsSocket token).isSome

def responder (server : Server) : Responder := ⟨server.challenges, server.rateLimiter⟩

def core (server : Server) : Core where
  responder := server.responder
  socket token := ((server.dnsSocket token).map DnsSocket.socket).getD ⟨[], []⟩

def connections (source : Source Connection) : List (Option Work) :=
  source.map fun outcome => (accept outcome).map .connection

def datagrams (source : Source Datagram) : List (Option Work) :=
  source.map fun outcome => (recv outcome).map .datagram

def loop (server : Server) : Loop Token Work Core where
  queue
    | .tcpListener => connections server.httpListener
    | token => ((server.dnsSocket token).map fun socket => datagrams socket.arriving).getD []
  core := server.core

end Server

/-- What comes to a socket, with the socket. -/
def Happening.item : Happening → Option (Token × Option Work)
  | .connection outcome => some (.tcpListener, (accept outcome).map .connection)
  | .datagram4 outcome => some (.udpSocket4, (recv outcome).map .datagram)
  | .datagram6 outcome => some (.udpSocket6, (recv outcome).map .datagram)
  | .event _ => none
  | .pollError _ => none

def Happening.input (bound : Token → Bool) : Happening → Option (Input Token Work Stop)
  | .event e => if e.isReadable && bound e.token then some (.wake e.token) else none
  | .pollError source => some (.stop (.poll { source, message := "could not poll IO events" }))
  | happening =>
    (happening.item.filter fun item => bound item.1).map fun item => .arrive item.1 item.2

/-! ## A drain loop -/

variable {parse serverIps}

/-- A drain loop drains the queue of what it receives, if its handler does what the core does. -/
theorem drain_map {α β σ : Type} (receive : Except IoError β → Option α)
    {handle : α → σ → Checked σ} {token : Token} {work : α → Work} {R : σ → Core}
    (hcall : ∀ a state, Core.handle parse serverIps token (R state) (work a) =
      ((handle a state).map R).mapError .panic) :
    ∀ (source : Source β) (state : σ),
      EventLoop.drain (Core.handle parse serverIps token)
          (source.map fun outcome => (receive outcome).map work) (R state) =
        ((AcmeChampion.drain receive handle source state).result.map fun state' =>
          (((AcmeChampion.drain receive handle source state).left.map fun outcome =>
            (receive outcome).map work), R state')).mapError .panic
  | [], state => rfl
  | outcome :: source, state => by
    have ih := drain_map receive hcall source
    rcases hreceive : receive outcome with _ | a
    · simp only [List.map_cons, hreceive, Option.map_none, EventLoop.drain, AcmeChampion.drain]
      rfl
    · simp only [List.map_cons, hreceive, Option.map_some, EventLoop.drain, AcmeChampion.drain,
        hcall]
      rcases handle a state with panic | state'
      · rfl
      · exact ih state'

/-- `handleDns` sends what the responder answers. -/
theorem handleDns_eq (d : Datagram) (socket : UdpSocket) (cs : Challenges) (l : RateLimiter)
    (token : Token) :
    handleDns d.message socket serverIps d.srcAddr cs l d.now =
      match Responder.step parse serverIps ⟨cs, l⟩ (token, .datagram d) with
      | (.error panic, _) => .error panic
      | (.ok none, r) => .ok (socket, r.rateLimiter)
      | (.ok (some packet), r) =>
        .ok (sendLoop packet.1 packet.2 socket.sent socket.sends, r.rateLimiter) := by
  simp only [handleDns, Responder.step, Responder.answer]
  cases validReturnAddress d.srcAddr
  · rfl
  · rcases l.increment d.srcAddr.ip d.now with ⟨_ | _, l'⟩
    · rcases handleRequest d.message serverIps cs with p | _ | bytes <;> rfl
    · rfl

namespace Server

/-- The core with the state of a socket's drain loop in it. -/
def coreAt (server : Server) (token : Token) (state : UdpSocket × RateLimiter) : Core where
  responder := ⟨server.challenges, state.2⟩
  socket := Function.update server.core.socket token state.1

theorem socket_core {server : Server} {token : Token} {s : DnsSocket}
    (hs : server.dnsSocket token = some s) : server.core.socket token = s.socket := by
  simp [core, hs]

theorem queue_loop {server : Server} {token : Token} {s : DnsSocket}
    (hs : server.dnsSocket token = some s) : server.loop.queue token = datagrams s.arriving := by
  cases token with
  | tcpListener => cases hs
  | _ => simp [loop, hs]

theorem coreAt_self {server : Server} {token : Token} {s : DnsSocket}
    (hs : server.dnsSocket token = some s) :
    server.coreAt token (s.socket, server.rateLimiter) = server.core :=
  Core.ext rfl (by rw [coreAt, ← socket_core hs, Function.update_eq_self])

theorem drain_datagrams {server : Server} {token : Token} {s : DnsSocket}
    (hs : server.dnsSocket token = some s) :
    EventLoop.drain (Core.handle parse serverIps token) (datagrams s.arriving) server.core =
      ((drainDns serverIps server s).map fun drained =>
        (datagrams drained.1.arriving, server.coreAt token (drained.1.socket, drained.2))).mapError
          .panic := by
  have hcall : ∀ (d : Datagram) (state : UdpSocket × RateLimiter),
      Core.handle parse serverIps token (server.coreAt token state) (.datagram d) =
        ((handleDns d.message state.1 serverIps d.srcAddr server.challenges state.2 d.now).map
          (server.coreAt token)).mapError .panic := by
    rintro d ⟨socket, l⟩
    have hchallenges := congrArg Responder.challenges
      (@Responder.step_datagram π parse serverIps ⟨server.challenges, l⟩ token d)
    rw [@handleDns_eq π parse serverIps d socket server.challenges l token]
    simp only [Core.handle, coreAt, Function.update_self, Function.update_idem]
    rcases hstep : Responder.step parse serverIps ⟨server.challenges, l⟩ (token, .datagram d) with
      ⟨p | _ | packet, r⟩
    · rfl
    · rw [hstep] at hchallenges
      obtain ⟨cs, l'⟩ := r
      obtain rfl : cs = server.challenges := hchallenges
      rfl
    · rw [hstep] at hchallenges
      obtain ⟨cs, l'⟩ := r
      obtain rfl : cs = server.challenges := hchallenges
      rfl
  have hdrain := drain_map recv hcall s.arriving (s.socket, server.rateLimiter)
  rw [coreAt_self hs] at hdrain
  unfold drainDns drainUdp datagrams
  rw [hdrain]
  rcases AcmeChampion.drain recv _ s.arriving (s.socket, server.rateLimiter) with
    ⟨handed, left, p | state⟩
  · rfl
  · rfl

theorem drain_connections (server : Server) :
    EventLoop.drain (Core.handle parse serverIps .tcpListener) (connections server.httpListener)
        server.core =
      ((drainTcp parse server.httpListener server.challenges).result.map fun challenges =>
        (connections (drainTcp parse server.httpListener server.challenges).left,
          { server.core with responder := ⟨challenges, server.rateLimiter⟩ })).mapError .panic := by
  have hcall : ∀ (stream : Stream IoError) (cs : Challenges),
      Core.handle parse serverIps .tcpListener
          { server.core with responder := ⟨cs, server.rateLimiter⟩ } (.connection stream) =
        (((handleHttp parse stream bufLen cs).map fun served => served.challenges).map fun cs =>
          { server.core with responder := ⟨cs, server.rateLimiter⟩ }).mapError .panic := by
    intro stream cs
    simp only [Core.handle, Responder.step, Responder.answer]
    rcases handleHttp parse stream bufLen cs with p | served <;> rfl
  exact drain_map accept (R := fun cs => { server.core with responder := ⟨cs, server.rateLimiter⟩ })
    hcall server.httpListener server.challenges

/-! ## A step of the main loop -/

theorem loop_withConnections (server : Server) (source : Source Connection) (cs : Challenges) :
    loop { server with httpListener := source, challenges := cs } =
      { queue := Function.update server.loop.queue .tcpListener (connections source)
        core := { server.core with responder := ⟨cs, server.rateLimiter⟩ } } := by
  refine Loop.ext (funext fun token => ?_) rfl
  cases token <;> rfl

theorem loop_withDnsSocket4 (server : Server) (s : DnsSocket) (l : RateLimiter) :
    loop { server with dnsSocket4 := some s, rateLimiter := l } =
      { queue := Function.update server.loop.queue .udpSocket4 (datagrams s.arriving)
        core := server.coreAt .udpSocket4 (s.socket, l) } := by
  refine Loop.ext (funext fun token => ?_) (Core.ext rfl (funext fun token => ?_))
  · cases token <;> rfl
  · cases token <;> rfl

theorem loop_withDnsSocket6 (server : Server) (s : DnsSocket) (l : RateLimiter) :
    loop { server with dnsSocket6 := some s, rateLimiter := l } =
      { queue := Function.update server.loop.queue .udpSocket6 (datagrams s.arriving)
        core := server.coreAt .udpSocket6 (s.socket, l) } := by
  refine Loop.ext (funext fun token => ?_) (Core.ext rfl (funext fun token => ?_))
  · cases token <;> rfl
  · cases token <;> rfl

/-- A datagram socket's drain loop wakes its queue; `put` puts back what the loop leaves. -/
theorem loop_drainDns {server : Server} {token : Token} {s : DnsSocket}
    (hs : server.dnsSocket token = some s) {put : DnsSocket → RateLimiter → Server}
    (hput : ∀ s l, loop (put s l) =
      { queue := Function.update server.loop.queue token (datagrams s.arriving)
        core := server.coreAt token (s.socket, l) }) :
    (((drainDns serverIps server s).map fun drained => put drained.1 drained.2).mapError
        Stop.panic).map loop =
      EventLoop.step (Core.handle parse serverIps) server.loop (.wake token) := by
  have hdrain := @drain_datagrams π parse serverIps server token s hs
  have hcore : server.loop.core = server.core := rfl
  simp only [EventLoop.step, queue_loop hs, hcore, hdrain]
  rcases drainDns serverIps server s with p | ⟨s', l⟩
  · rfl
  · exact congrArg Except.ok (hput s' l)

/-- An event empties its socket's queue, if the socket is bound. -/
theorem loop_handleEvent (server : Server) (event : Event) :
    ((handleEvent parse serverIps server event).mapError Stop.panic).map loop =
      if event.isReadable && server.bound event.token then
        EventLoop.step (Core.handle parse serverIps) server.loop (.wake event.token)
      else .ok server.loop := by
  obtain ⟨token, _ | _⟩ := event
  · rfl
  cases token with
  | tcpListener =>
    have hdrain := @drain_connections π parse serverIps server
    have hqueue : server.loop.queue .tcpListener = connections server.httpListener := rfl
    have hcore : server.loop.core = server.core := rfl
    simp only [handleEvent, EventLoop.step, hqueue, hcore, hdrain]
    rcases (drainTcp parse server.httpListener server.challenges).result with p | cs
    · rfl
    · exact congrArg Except.ok (loop_withConnections server _ cs)
  | udpSocket4 =>
    rcases hsocket : server.dnsSocket4 with _ | s
    · simp only [handleEvent, hsocket, bound, dnsSocket]
      rfl
    · simp only [handleEvent, hsocket, bound, dnsSocket]
      exact @loop_drainDns π parse serverIps server .udpSocket4 s hsocket _
        (loop_withDnsSocket4 server)
  | udpSocket6 =>
    rcases hsocket : server.dnsSocket6 with _ | s
    · simp only [handleEvent, hsocket, bound, dnsSocket]
      rfl
    · simp only [handleEvent, hsocket, bound, dnsSocket]
      exact @loop_drainDns π parse serverIps server .udpSocket6 s hsocket _
        (loop_withDnsSocket6 server)
  | other => rfl

theorem loop_arrive {server : Server} {token : Token} {s : DnsSocket}
    (hs : server.dnsSocket token = some s) {put : DnsSocket → RateLimiter → Server}
    (hput : ∀ s l, loop (put s l) =
      { queue := Function.update server.loop.queue token (datagrams s.arriving)
        core := server.coreAt token (s.socket, l) }) (outcome : Except IoError Datagram) :
    loop (put (s.arrive outcome) server.rateLimiter) =
      server.loop.arrive token ((recv outcome).map .datagram) := by
  have hqueue : datagrams (s.arrive outcome).arriving =
      datagrams s.arriving ++ [(recv outcome).map .datagram] := by
    simp [DnsSocket.arrive, datagrams]
  have hcore : server.coreAt token ((s.arrive outcome).socket, server.rateLimiter) = server.core :=
    @coreAt_self server token s hs
  rw [hput, hqueue, hcore, ← queue_loop hs]
  rfl

/-- What happens is an input of the event loop, or nothing to it. -/
theorem loop_step (server : Server) (happening : Happening) :
    (step parse serverIps server happening).map loop =
      (happening.input server.bound).elim (.ok server.loop)
        (EventLoop.step (Core.handle parse serverIps) server.loop) := by
  cases happening with
  | connection outcome =>
    refine congrArg Except.ok ?_
    rw [loop_withConnections server _ server.challenges]
    simp [Loop.arrive, loop, connections]
    rfl
  | datagram4 outcome =>
    rcases hsocket : server.dnsSocket4 with _ | s
    · have hbound : server.bound .udpSocket4 = false := by simp [bound, dnsSocket, hsocket]
      have hsame : { server with dnsSocket4 := none } = server := by rw [← hsocket]
      simp only [step, hsocket, Option.map_none, hsame, Happening.input, Happening.item,
        Option.filter_some, hbound]
      rfl
    · have hbound : server.bound .udpSocket4 = true := by simp [bound, dnsSocket, hsocket]
      have harrive := @loop_arrive server .udpSocket4 s hsocket _ (loop_withDnsSocket4 server)
        outcome
      simp only [step, hsocket, Option.map_some, Happening.input, Happening.item,
        Option.filter_some, hbound]
      exact congrArg Except.ok harrive
  | datagram6 outcome =>
    rcases hsocket : server.dnsSocket6 with _ | s
    · have hbound : server.bound .udpSocket6 = false := by simp [bound, dnsSocket, hsocket]
      have hsame : { server with dnsSocket6 := none } = server := by rw [← hsocket]
      simp only [step, hsocket, Option.map_none, hsame, Happening.input, Happening.item,
        Option.filter_some, hbound]
      rfl
    · have hbound : server.bound .udpSocket6 = true := by simp [bound, dnsSocket, hsocket]
      have harrive := @loop_arrive server .udpSocket6 s hsocket _ (loop_withDnsSocket6 server)
        outcome
      simp only [step, hsocket, Option.map_some, Happening.input, Happening.item,
        Option.filter_some, hbound]
      exact congrArg Except.ok harrive
  | event e =>
    simp only [step, loop_handleEvent, Happening.input]
    split_ifs <;> rfl
  | pollError source => rfl

/-- The loop neither binds nor closes a socket. -/
theorem bound_handleEvent {server server' : Server} {event : Event}
    (h : handleEvent parse serverIps server event = .ok server') :
    server'.bound = server.bound := by
  unfold handleEvent at h
  split_ifs at h
  · rw [Except.ok.inj h]
  split at h
  · rcases hresult : (drainTcp parse server.httpListener server.challenges).result with p | cs
    · simp [hresult, Except.map] at h
    · simp only [hresult, Except.map, Except.ok.injEq] at h
      rw [← h]
      rfl
  · rcases hsocket : server.dnsSocket4 with _ | s
    · simp only [hsocket, Except.ok.injEq] at h
      rw [h]
    · rcases hdrain : drainDns serverIps server s with p | drained
      · simp [hsocket, hdrain, Except.map] at h
      · simp only [hsocket, hdrain, Except.map, Except.ok.injEq] at h
        rw [← h]
        funext token
        cases token <;> simp [bound, dnsSocket, hsocket]
  · rcases hsocket : server.dnsSocket6 with _ | s
    · simp only [hsocket, Except.ok.injEq] at h
      rw [h]
    · rcases hdrain : drainDns serverIps server s with p | drained
      · simp [hsocket, hdrain, Except.map] at h
      · simp only [hsocket, hdrain, Except.map, Except.ok.injEq] at h
        rw [← h]
        funext token
        cases token <;> simp [bound, dnsSocket, hsocket]
  · rw [Except.ok.inj h]

theorem bound_step {server server' : Server} {happening : Happening}
    (h : step parse serverIps server happening = .ok server') : server'.bound = server.bound := by
  cases happening with
  | connection outcome =>
    rw [← Except.ok.inj h]
    rfl
  | datagram4 outcome =>
    rw [← Except.ok.inj h]
    funext token
    cases token <;> simp [bound, dnsSocket]
  | datagram6 outcome =>
    rw [← Except.ok.inj h]
    funext token
    cases token <;> simp [bound, dnsSocket]
  | event e =>
    simp only [step] at h
    rcases hevent : handleEvent parse serverIps server e with p | server1
    · simp [hevent, Except.mapError] at h
    · simp only [hevent, Except.mapError, Except.ok.injEq] at h
      rw [← h]
      exact bound_handleEvent hevent
  | pollError source => cases h

theorem bound_mainLoop : ∀ {happenings : List Happening} {server server' : Server},
    mainLoop parse serverIps server happenings = .ok server' → server'.bound = server.bound
  | [], server, server', h => by rw [Except.ok.inj h]
  | happening :: happenings, server, server', h => by
    unfold mainLoop at h
    rw [List.foldlM_cons] at h
    rcases hstep : step parse serverIps server happening with e | server1
    · rw [hstep] at h
      cases h
    · rw [hstep] at h
      have hrest : mainLoop parse serverIps server1 happenings = .ok server' := h
      rw [bound_mainLoop hrest, bound_step hstep]

/-- The main loop is the event loop. -/
theorem loop_mainLoop : ∀ (happenings : List Happening) (server : Server),
    (mainLoop parse serverIps server happenings).map loop =
      EventLoop.run (Core.handle parse serverIps) server.loop
        (happenings.filterMap (Happening.input server.bound))
  | [], server => rfl
  | happening :: happenings, server => by
    have hloop := @loop_step π parse serverIps server happening
    unfold mainLoop
    rw [List.foldlM_cons, List.filterMap_cons]
    rcases hstep : step parse serverIps server happening with e | server1
    · rw [hstep] at hloop
      rcases hinput : happening.input server.bound with _ | input
      · rw [hinput] at hloop
        cases hloop
      · rw [hinput] at hloop
        have hinputStep : EventLoop.step (Core.handle parse serverIps) server.loop input =
            .error e := hloop.symm
        simp only [run_cons, hinputStep]
        rfl
    · have ih := loop_mainLoop happenings server1
      rw [bound_step hstep] at ih
      rw [hstep] at hloop
      rcases hinput : happening.input server.bound with _ | input
      · rw [hinput] at hloop
        rw [Except.ok.inj hloop] at ih
        exact ih
      · rw [hinput] at hloop
        have hinputStep : EventLoop.step (Core.handle parse serverIps) server.loop input =
            .ok server1.loop := hloop.symm
        simp only [run_cons, hinputStep]
        exact ih

end Server

end

/-! ## What is sent -/

/-- Sending never fails but by blocking. -/
def UdpSocket.Dependable (socket : UdpSocket) : Prop :=
  ∀ e : IoError, .error e ∈ socket.sends → e.kind = .wouldBlock

/-- The socket has sent packets of these, in order, and all of them if it is dependable. -/
structure UdpSocket.Sends (socket socket' : UdpSocket) (packets : List Packet) : Prop where
  sent : ∃ ps, socket'.sent = socket.sent ++ ps ∧ ps.Sublist packets ∧
    (socket.Dependable → ps = packets)
  sends : socket'.sends ⊆ socket.sends

theorem UdpSocket.Sends.refl (socket : UdpSocket) : socket.Sends socket [] :=
  ⟨⟨[], by simp⟩, List.Subset.refl _⟩

theorem UdpSocket.Sends.trans {s s' s'' : UdpSocket} {packets packets' : List Packet}
    (h : s.Sends s' packets) (h' : s'.Sends s'' packets') : s.Sends s'' (packets ++ packets') := by
  obtain ⟨⟨ps, hsent, hsub, hall⟩, hsends⟩ := h
  obtain ⟨⟨ps', hsent', hsub', hall'⟩, hsends'⟩ := h'
  refine ⟨⟨ps ++ ps', ?_, hsub.append hsub', fun hdep => ?_⟩, List.Subset.trans hsends' hsends⟩
  · rw [hsent', hsent, List.append_assoc]
  · rw [hall hdep, hall' fun e he => hdep e (hsends he)]

theorem sends_sendLoop (packet : Packet) (sent : List Packet) :
    ∀ sends : List (Except IoError Unit),
      UdpSocket.Sends ⟨sends, sent⟩ (sendLoop packet.1 packet.2 sent sends) [packet]
  | [] => ⟨⟨[packet], rfl, List.Sublist.refl _, fun _ => rfl⟩, List.Subset.refl _⟩
  | .ok () :: sends =>
    ⟨⟨[packet], rfl, List.Sublist.refl _, fun _ => rfl⟩, List.subset_cons_self _ _⟩
  | .error e :: sends => by
    rw [sendLoop]
    split
    · obtain ⟨⟨ps, hsent, hsub, hall⟩, hsends⟩ := sends_sendLoop packet sent sends
      refine ⟨⟨ps, hsent, hsub, fun hdep => hall fun e he => hdep e ?_⟩,
        List.Subset.trans hsends (List.subset_cons_self _ _)⟩
      exact List.mem_cons_of_mem _ he
    · rename_i hkind
      refine ⟨⟨[], by simp, List.nil_sublist _, fun hdep => ?_⟩, List.subset_cons_self _ _⟩
      have hblock := hdep e (List.mem_cons_self)
      rw [hkind] at hblock
      cases hblock

/-- The packets that answer work of a socket. -/
def packetsOf (token : Token) (answers : List ((Token × Work) × Checked (Option Packet))) :
    List Packet :=
  answers.filterMap fun e => if e.1.1 = token then e.2.toOption.join else none

theorem packetsOf_cons (token : Token) (e : (Token × Work) × Checked (Option Packet))
    (answers : List ((Token × Work) × Checked (Option Packet))) :
    packetsOf token (e :: answers) = packetsOf token [e] ++ packetsOf token answers := by
  rw [packetsOf, ← List.singleton_append, List.filterMap_append]
  rfl

section

variable {π : Type} {parse : List UInt8 → Except π (Status × Request)} {serverIps : ServerIps}

namespace Core

theorem handle_error_iff {token : Token} {core : Core} {work : Work} :
    (∃ core', core.handle parse serverIps token work = .ok core') ↔
      ∀ panic, (core.responder.step parse serverIps (token, work)).1 ≠ .error panic := by
  unfold handle
  rcases core.responder.step parse serverIps (token, work) with ⟨p | _ | packet, r⟩ <;> simp

theorem handle_ok {token : Token} {core core' : Core} {work : Work}
    (h : core.handle parse serverIps token work = .ok core') :
    core'.responder = (core.responder.step parse serverIps (token, work)).2 ∧
      ∀ token', (core.socket token').Sends (core'.socket token') (packetsOf token'
        [((token, work), (core.responder.step parse serverIps (token, work)).1)]) := by
  unfold handle at h
  rcases hstep : core.responder.step parse serverIps (token, work) with ⟨p | _ | packet, r⟩
  · simp [hstep] at h
  · simp only [hstep, Except.ok.injEq] at h
    rw [← h]
    refine ⟨rfl, fun token' => ?_⟩
    simp [packetsOf, Except.toOption, UdpSocket.Sends.refl]
  · simp only [hstep, Except.ok.injEq] at h
    rw [← h]
    refine ⟨rfl, fun token' => ?_⟩
    by_cases htoken : token = token'
    · subst htoken
      simpa [packetsOf, Except.toOption] using
        sends_sendLoop packet (core.socket token).sent (core.socket token).sends
    · simp [packetsOf, htoken, Function.update_of_ne (Ne.symm htoken), UdpSocket.Sends.refl]

/-- Work done one piece after the other is a run of the responder. -/
theorem handleAll_ok : ∀ {items : List (Token × Work)} {core core' : Core},
    handleAll (handle parse serverIps) core items = .ok core' →
      core'.responder = Machine.final (Responder.step parse serverIps) core.responder items ∧
      ∀ token, (core.socket token).Sends (core'.socket token) (packetsOf token
        (Machine.trace (Responder.step parse serverIps) core.responder items))
  | [], core, core', h => by
    rw [← Except.ok.inj h]
    exact ⟨rfl, fun token => UdpSocket.Sends.refl _⟩
  | (token, work) :: items, core, core', h => by
    unfold handleAll at h
    rw [List.foldlM_cons] at h
    rcases hcall : core.handle parse serverIps token work with e | core1
    · simp [hcall, bind, Except.bind] at h
    · obtain ⟨hresponder, hsends⟩ := handle_ok hcall
      rw [hcall] at h
      have hrest : handleAll (handle parse serverIps) core1 items = .ok core' := h
      obtain ⟨hfinal, hrestSends⟩ := handleAll_ok hrest
      rw [hresponder] at hfinal hrestSends
      refine ⟨hfinal, fun token' => ?_⟩
      rw [Machine.trace, packetsOf_cons]
      exact (hsends token').trans (hrestSends token')

/-- It is done to the end exactly when no answer of the run is a panic. -/
theorem handleAll_ok_iff : ∀ {items : List (Token × Work)} {core : Core},
    (∃ core', handleAll (handle parse serverIps) core items = .ok core') ↔
      ∀ e ∈ Machine.trace (Responder.step parse serverIps) core.responder items,
        ∀ panic, e.2 ≠ .error panic
  | [], core => iff_of_true ⟨core, rfl⟩ (by simp [Machine.trace])
  | (token, work) :: items, core => by
    have hone := @handle_error_iff π parse serverIps token core work
    unfold handleAll
    rw [List.foldlM_cons, Machine.trace, List.forall_mem_cons]
    rcases hcall : core.handle parse serverIps token work with e | core1
    · rw [hcall] at hone
      refine iff_of_false (by simp [bind, Except.bind]) fun h => ?_
      obtain ⟨core', hcore'⟩ := hone.2 h.1
      cases hcore'
    · rw [hcall] at hone
      have hrest := @handleAll_ok_iff items core1
      rw [(handle_ok hcall).1] at hrest
      refine Iff.trans ?_ (and_iff_right (hone.1 ⟨core1, rfl⟩)).symm
      exact hrest

end Core

namespace Server

variable (parse serverIps)

/-- The work that a run of the main loop does, in order, each piece with its socket. -/
def handed (server : Server) (happenings : List Happening) : List (Token × Work) :=
  EventLoop.handed (Core.handle parse serverIps) server.loop
    (happenings.filterMap (Happening.input server.bound))

/-- The responder's answers to the work of a run. -/
def answers (server : Server) (happenings : List Happening) :
    List ((Token × Work) × Checked (Option Packet)) :=
  Machine.trace (Responder.step parse serverIps) server.responder
    (server.handed parse serverIps happenings)

/-- The work that waits at a socket. -/
def waiting (server : Server) (token : Token) : List Work :=
  (server.loop.queue token).reduceOption

end Server

/-- The work that comes to a socket. -/
def arrived (token : Token) (happenings : List Happening) : List Work :=
  happenings.filterMap fun happening => happening.item.bind fun item =>
    if item.1 = token then item.2 else none

/-- What a happening brings to a socket. -/
def Happening.itemFor (token : Token) (happening : Happening) : Option (Option Work) :=
  happening.item.bind fun item => if item.1 = token then some item.2 else none

theorem Happening.itemFor_eq_some_iff {token : Token} {happening : Happening}
    {work : Option Work} :
    happening.itemFor token = some work ↔ happening.item = some (token, work) := by
  unfold itemFor
  rcases happening.item with _ | ⟨token', work'⟩
  · simp
  · by_cases htoken : token' = token <;> simp [htoken]

/-- To the event loop, a bound socket's queue is brought just that. -/
theorem arrived_inputs (happenings : List Happening) {bound : Token → Bool} {token : Token}
    (h : bound token) :
    EventLoop.arrived token (happenings.filterMap (Happening.input bound)) =
      happenings.filterMap (Happening.itemFor token) := by
  unfold EventLoop.arrived
  rw [List.filterMap_filterMap]
  refine List.filterMap_congr fun happening _ => ?_
  have harrive : ∀ (token' : Token) (work : Option Work),
      (((some (token', work)).filter fun item => bound item.1).map fun item =>
        (.arrive item.1 item.2 : Input Token Work Stop)).bind (Input.itemFor token) =
          if token' = token then some work else none := by
    intro token' work
    by_cases htoken : token' = token
    · subst htoken
      simp [Option.filter_some, h, Input.itemFor]
    · by_cases hbound : bound token' <;> simp [Option.filter_some, hbound, htoken, Input.itemFor]
  cases happening with
  | connection outcome => exact harrive _ _
  | datagram4 outcome => exact harrive _ _
  | datagram6 outcome => exact harrive _ _
  | event e =>
    simp only [Happening.input, Happening.itemFor, Happening.item]
    split_ifs <;> rfl
  | pollError source => rfl

theorem reduceOption_arrived (happenings : List Happening) {bound : Token → Bool} {token : Token}
    (h : bound token) :
    (EventLoop.arrived token (happenings.filterMap (Happening.input bound))).reduceOption =
      arrived token happenings := by
  rw [arrived_inputs happenings h]
  unfold arrived List.reduceOption
  rw [List.filterMap_filterMap]
  refine List.filterMap_congr fun happening _ => ?_
  unfold Happening.itemFor
  rcases happening.item with _ | ⟨token', work⟩
  · rfl
  · by_cases htoken : token' = token <;> simp [htoken]

namespace Server

variable {server server' : Server} {happenings : List Happening}

theorem run_of_mainLoop (h : mainLoop parse serverIps server happenings = .ok server') :
    EventLoop.run (Core.handle parse serverIps) server.loop
      (happenings.filterMap (Happening.input server.bound)) = .ok server'.loop := by
  rw [← loop_mainLoop, h]
  rfl

theorem handed_cons {server1 : Server} {happening : Happening}
    (h : step parse serverIps server happening = .ok server1) (happenings : List Happening) :
    server.handed parse serverIps (happening :: happenings) =
      (happening.input server.bound).elim []
        (handedAt (Core.handle parse serverIps) server.loop) ++
          server1.handed parse serverIps happenings := by
  have hloop := @loop_step π parse serverIps server happening
  rw [h] at hloop
  unfold handed
  rw [List.filterMap_cons, bound_step h]
  rcases hinput : happening.input server.bound with _ | input
  · rw [hinput] at hloop
    rw [Except.ok.inj hloop]
    rfl
  · rw [hinput] at hloop
    exact handed_cons_ok hloop.symm _

section Registration

/-- A registration for the name that is asked for. -/
def acmeRequest : Request where
  method := some "POST"
  path := some "/register/d"
  headers := [⟨"X-ACME-Challenge-Name", utf8 "_acme-challenge"⟩,
    ⟨"X-ACME-Challenge-Value", utf8 "v"⟩]

def asking : Datagram where
  message := (acmeQuery .txt).toBytes
  srcAddr := .v4 1 53
  now := 0

/-- The query comes after the registration; a socket that is not bound is announced too. -/
def registration : List Happening :=
  [.connection (.ok (client acmeRequest)), .event ⟨.udpSocket6, true⟩, .event ⟨.tcpListener, true⟩,
    .datagram4 (.ok asking), .event ⟨.udpSocket4, true⟩]

/-- The server that has the challenge, with a limiter, what has come to its socket and what it has
sent. -/
def registered (rateLimiter : RateLimiter) (arriving : Source Datagram) (sent : List Packet) :
    Server where
  httpListener := []
  dnsSocket4 := some { arriving, socket := { sends := [], sent } }
  dnsSocket6 := none
  challenges := ⟨[⟨"d", "_acme-challenge", "v"⟩]⟩
  rateLimiter

theorem step_register : step (parseAmong [acmeRequest]) ⟨none, none⟩
    { new (some []) none with httpListener := [.ok (client acmeRequest)] }
    (.event ⟨.tcpListener, true⟩) = .ok (registered .new [] []) := by
  have htcp : (drainTcp (parseAmong [acmeRequest]) [.ok (client acmeRequest)] .new).result =
      .ok ⟨[⟨"d", "_acme-challenge", "v"⟩]⟩ := by decide +kernel
  simp only [step, handleEvent, new, htcp]
  rfl

theorem step_answer : ∃ bytes,
    handleRequest (acmeQuery .txt).toBytes ⟨none, none⟩ ⟨[⟨"d", "_acme-challenge", "v"⟩]⟩ =
      .ok (some bytes) ∧
    step (parseAmong [acmeRequest]) ⟨none, none⟩ (registered .new [.ok asking] [])
      (.event ⟨.udpSocket4, true⟩) = .ok (registered (RateLimiter.new.increment (.v4 1) 0).2 []
        [(bytes, .v4 1 53)]) := by
  obtain ⟨r, hr, -⟩ := (acmeQuery .txt).exists_response ⟨none, none⟩
    ⟨[⟨"d", "_acme-challenge", "v"⟩]⟩
  have hbytes := handleRequest_eq_some_iff.2 ⟨r, hr, rfl⟩
  refine ⟨r.toBytes, hbytes, ?_⟩
  simp only [step, handleEvent, registered, drainDns, drainUdp, drain, recv, received, asking,
    handleDns, hbytes]
  rfl

theorem mainLoop_registration : ∃ bytes,
    handleRequest (acmeQuery .txt).toBytes ⟨none, none⟩ ⟨[⟨"d", "_acme-challenge", "v"⟩]⟩ =
      .ok (some bytes) ∧
    mainLoop (parseAmong [acmeRequest]) ⟨none, none⟩ (new (some []) none) registration =
      .ok (registered (RateLimiter.new.increment (.v4 1) 0).2 [] [(bytes, .v4 1 53)]) := by
  obtain ⟨bytes, hbytes, hanswer⟩ := step_answer
  refine ⟨bytes, hbytes, ?_⟩
  calc mainLoop (parseAmong [acmeRequest]) ⟨none, none⟩ (new (some []) none) registration
      = (step (parseAmong [acmeRequest]) ⟨none, none⟩
          { new (some []) none with httpListener := [.ok (client acmeRequest)] }
          (.event ⟨.tcpListener, true⟩)).bind fun server => mainLoop (parseAmong [acmeRequest])
            ⟨none, none⟩ server [.datagram4 (.ok asking), .event ⟨.udpSocket4, true⟩] := rfl
    _ = (step (parseAmong [acmeRequest]) ⟨none, none⟩ (registered .new [.ok asking] [])
          (.event ⟨.udpSocket4, true⟩)).bind fun server => .ok server := by
      rw [step_register]
      rfl
    _ = .ok (registered _ [] [(bytes, .v4 1 53)]) := by
      rw [hanswer]
      rfl

end Registration

/-- When reading a socket has brought no error, an event for it leaves nothing waiting: everything
that has come to it is handled, in order, while every read and send returns. -/
theorem handed_of_event {pre post : List Happening} {token : Token}
    (h : mainLoop parse serverIps server (pre ++ .event ⟨token, true⟩ :: post) = .ok server')
    (hbound : server.bound token) (hqueue : none ∉ server.loop.queue token)
    (hpre : ∀ happening ∈ pre, happening.item ≠ some (token, none))
    (hpost : ∀ happening ∈ post, ∀ work, happening.item ≠ some (token, work)) :
    ofQueue token (server.handed parse serverIps (pre ++ .event ⟨token, true⟩ :: post)) =
      server.waiting token ++ arrived token pre := by
  have hrun := run_of_mainLoop h
  have hinput : (Happening.event ⟨token, true⟩).input server.bound = some (.wake token) := by
    simp [Happening.input, hbound]
  have hinputs : (pre ++ .event ⟨token, true⟩ :: post).filterMap (Happening.input server.bound) =
      pre.filterMap (Happening.input server.bound) ++
        .wake token :: post.filterMap (Happening.input server.bound) := by
    rw [List.filterMap_append, List.filterMap_cons, hinput]
  have hnone : none ∉ server.loop.queue token ++
      EventLoop.arrived token (pre.filterMap (Happening.input server.bound)) := by
    rw [arrived_inputs pre hbound, List.mem_append, List.mem_filterMap]
    rintro (hmem | ⟨happening, hmem, hitem⟩)
    · exact hqueue hmem
    · exact hpre happening hmem (Happening.itemFor_eq_some_iff.1 hitem)
  have hlater : post.filterMap (Happening.itemFor token) = [] := by
    refine List.filterMap_eq_nil_iff.2 fun happening hmem => ?_
    rcases hitem : happening.itemFor token with _ | work
    · rfl
    · exact absurd (Happening.itemFor_eq_some_iff.1 hitem) (hpost happening hmem work)
  have hnothing : arrived token post = [] := by
    rw [← reduceOption_arrived post hbound, arrived_inputs post hbound, hlater]
    rfl
  have hwaiting := waiting_of_run hrun token
  rw [hinputs] at hrun
  have hempty := queue_of_wake hrun hnone ((arrived_inputs post hbound).trans hlater)
  have hcame : arrived token (pre ++ .event ⟨token, true⟩ :: post) = arrived token pre := by
    unfold arrived at hnothing ⊢
    rw [List.filterMap_append, List.filterMap_cons, hnothing]
    exact List.append_nil _
  rw [hempty, reduceOption_arrived _ hbound, hcame] at hwaiting
  rw [← List.append_nil (ofQueue token _)]
  exact hwaiting

theorem handed_of_event_registration :
    ofQueue .udpSocket4 ((new (some []) none).handed (parseAmong [acmeRequest]) ⟨none, none⟩
      registration) = [.datagram asking] := by
  obtain ⟨_, -, hrun⟩ := mainLoop_registration
  have hrun : mainLoop (parseAmong [acmeRequest]) ⟨none, none⟩ (new (some []) none)
      ([.connection (.ok (client acmeRequest)), .event ⟨.udpSocket6, true⟩,
        .event ⟨.tcpListener, true⟩, .datagram4 (.ok asking)] ++ .event ⟨.udpSocket4, true⟩ :: []) =
      .ok _ := hrun
  exact handed_of_event hrun rfl List.not_mem_nil
    (by simp [Happening.item, recv, received]) (by simp)

theorem pollError_mem_iff {bound : Token → Bool} :
    (∀ error, .stop error ∉ happenings.filterMap (Happening.input bound)) ↔
      ∀ source, .pollError source ∉ happenings := by
  constructor
  · intro h source hmem
    exact h _ (List.mem_filterMap.2 ⟨_, hmem, rfl⟩)
  · intro h error hmem
    obtain ⟨happening, hhappening, hinput⟩ := List.mem_filterMap.1 hmem
    cases happening with
    | pollError source => exact h source hhappening
    | event e =>
      simp only [Happening.input] at hinput
      split_ifs at hinput
      cases hinput
    | _ =>
      simp only [Happening.input, Option.map_eq_some_iff] at hinput
      obtain ⟨item, -, hitem⟩ := hinput
      cases hitem

/-- While every read and send returns, the loop goes on exactly while the poll does not fail and no
datagram that is handled crashes it, at the limiter that the requests handled before have left.  An
accepted stream is read and written without a timeout, and one on which that blocks for ever is not
in the model. -/
theorem mainLoop_ok_iff (server : Server) (happenings : List Happening) :
    (∃ server', mainLoop parse serverIps server happenings = .ok server') ↔
      (∀ source, .pollError source ∉ happenings) ∧
      ∀ pre token d post, server.handed parse serverIps happenings =
          pre ++ (token, .datagram d) :: post →
        ¬ Crashes (Machine.final RateLimiter.step server.rateLimiter
          (Responder.requests pre)) d := by
  have hok : (∃ server', mainLoop parse serverIps server happenings = .ok server') ↔
      ∃ loop', EventLoop.run (Core.handle parse serverIps) server.loop
        (happenings.filterMap (Happening.input server.bound)) = .ok loop' := by
    rw [← loop_mainLoop]
    rcases mainLoop parse serverIps server happenings with e | server'
    · exact iff_of_false (by simp) (by simp [Except.map])
    · exact iff_of_true ⟨server', rfl⟩ ⟨_, rfl⟩
  have hcrash : ∀ pre item, (∃ panic, ((Machine.final (Responder.step parse serverIps)
        server.responder pre).step parse serverIps item).1 = .error panic) ↔
      ∃ d, item.2 = .datagram d ∧
        Crashes (Machine.final RateLimiter.step server.rateLimiter (Responder.requests pre)) d := by
    intro pre item
    rw [Responder.step_error_iff, Responder.rateLimiter_final]
    rfl
  rw [hok, @run_ok_iff _ _ _ _ (Core.handle parse serverIps), pollError_mem_iff,
    Core.handleAll_ok_iff]
  refine and_congr_right fun _ => ⟨?_, ?_⟩
  · intro hall pre token d post hsplit hcrashes
    obtain ⟨panic, hpanic⟩ := (hcrash pre (token, .datagram d)).2 ⟨d, rfl, hcrashes⟩
    refine hall ((token, .datagram d), .error panic) ?_ panic rfl
    exact (Machine.mem_trace_iff _).2 ⟨pre, post, hsplit, hpanic.symm⟩
  · intro hall e he panic hpanic
    obtain ⟨pre, post, hsplit, hanswer⟩ := (Machine.mem_trace_iff _).1 he
    obtain ⟨d, hd, hcrashes⟩ := (hcrash pre e.1).1 ⟨panic, hanswer.symm.trans hpanic⟩
    refine hall pre e.1.1 d post ?_ hcrashes
    rw [← hd]
    exact hsplit

end Server

end

end AcmeChampion
