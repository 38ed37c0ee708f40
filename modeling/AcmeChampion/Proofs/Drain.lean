import AcmeChampion.MainLoop
import AcmeChampion.Proofs.Handler
import AcmeChampion.Proofs.Http

/-!
# What a drain loop hands on

Of what arrives before its source first blocks, a drain loop hands on what comes before the first
error, and of that what comes before the handler panics.  So it hands on everything exactly when no
error comes before an arrival, and no arrival but the last panics its handler (`handed_drain_iff`).
-/

namespace AcmeChampion

/-! ## What arrives -/

namespace Source

variable {α β : Type}

def blocks : Except IoError β → Bool
  | .ok _ => false
  | .error e => e.kind = .wouldBlock

/-- What reading comes to before the source first blocks. -/
def beforeBlock (source : Source β) : List (Except IoError β) :=
  source.takeWhile fun outcome => !blocks outcome

/-- What arrives before the source first blocks. -/
def arrivals (source : Source β) : List β := source.beforeBlock.filterMap Except.toOption

/-- Nothing arrives any more after the first error, and what arrives is `good`. -/
def Unbroken (good : β → Bool) (source : Source β) : Prop :=
  ∀ outcome ∈ source.beforeBlock.dropWhile fun outcome => outcome.toOption.any good,
    outcome.toOption = none

/-- What `receive` makes of the source before it first makes nothing of it. -/
def gotten (receive : Except IoError β → Option α) (source : Source β) : List α :=
  (source.takeWhile fun outcome => (receive outcome).isSome).filterMap receive

/-- `receive` makes `f b` of each good `b` that arrives, and nothing of all else. -/
structure Takes (receive : Except IoError β → Option α) (good : β → Bool) (f : β → α) : Prop where
  ok : ∀ b, receive (.ok b) = if good b then some (f b) else none
  error : ∀ e, receive (.error e) = none

variable {receive : Except IoError β → Option α} {good : β → Bool} {f : β → α}

theorem gotten_of_none {outcome : Except IoError β} (h : receive outcome = none)
    (source : Source β) : gotten receive (outcome :: source) = [] := by
  simp [gotten, h]

theorem gotten_of_some {outcome : Except IoError β} {a : α} (h : receive outcome = some a)
    (source : Source β) : gotten receive (outcome :: source) = a :: gotten receive source := by
  simp [gotten, h]

theorem arrivals_ok (b : β) (source : Source β) :
    arrivals (.ok b :: source) = b :: arrivals source := by
  simp [arrivals, beforeBlock, blocks, Except.toOption]

theorem unbroken_of_good {b : β} (h : good b) (source : Source β) :
    Unbroken good (.ok b :: source) ↔ Unbroken good source := by
  simp [Unbroken, beforeBlock, blocks, Except.toOption, h]

theorem unbroken_of_not_good {outcome : Except IoError β} (h : outcome.toOption.any good = false)
    (source : Source β) :
    Unbroken good (outcome :: source) ↔ arrivals (outcome :: source) = [] := by
  unfold Unbroken arrivals beforeBlock
  rw [List.filterMap_eq_nil_iff]
  cases hb : blocks outcome <;> simp [hb, h]

theorem Takes.some_or_none (h : Takes receive good f) (outcome : Except IoError β) :
    (∃ b, outcome = .ok b ∧ good b ∧ receive outcome = some (f b)) ∨
      (receive outcome = none ∧ outcome.toOption.any good = false) := by
  rcases outcome with e | b
  · exact .inr ⟨h.error e, rfl⟩
  · cases hb : good b
    · exact .inr ⟨by rw [h.ok, hb]; rfl, hb⟩
    · exact .inl ⟨b, rfl, hb, by rw [h.ok, hb]; rfl⟩

/-- What is got is the first part of what arrives, and all of it if nothing breaks the source. -/
theorem gotten_prefix (h : Takes receive good f) :
    ∀ source : Source β, gotten receive source <+: source.arrivals.map f ∧
      (gotten receive source = source.arrivals.map f ↔ source.Unbroken good)
  | [] => ⟨List.prefix_rfl, iff_of_true rfl (by simp [Unbroken, beforeBlock])⟩
  | outcome :: source => by
    obtain ⟨ihpre, iheq⟩ := gotten_prefix h source
    rcases h.some_or_none outcome with ⟨b, rfl, hgood, hsome⟩ | ⟨hnone, hbad⟩
    · rw [gotten_of_some hsome, unbroken_of_good hgood, arrivals_ok, List.map_cons]
      exact ⟨List.cons_prefix_cons.2 ⟨rfl, ihpre⟩, by rw [List.cons.injEq, iheq]; simp⟩
    · rw [gotten_of_none hnone, unbroken_of_not_good hbad]
      exact ⟨List.nil_prefix, by rw [eq_comm, List.map_eq_nil_iff]⟩

end Source

/-- Both `recv` and `accept` give up at any error, `WouldBlock` or not. -/
theorem received_error {α : Type} (e : IoError) :
    received (.error e : Except IoError α) = none := by
  obtain ⟨kind, text⟩ := e
  cases kind <;> rfl

/-! ## What is handed on -/

section Drain

variable {α β σ τ : Type} {receive : Except IoError β → Option α} {good : β → Bool} {f : β → α}
  {handle : α → σ → Checked σ}

/-- A call of the handler, as the step of a machine. -/
def handleStep (handle : α → σ → Checked σ) (state : σ) (a : α) : Checked Unit × σ :=
  match handle a state with
  | .ok state => (.ok (), state)
  | .error panic => (.error panic, state)

def panics (result : Checked Unit) : Bool := !result.isOk

theorem panics_handleStep {state : σ} {a : α} :
    panics (handleStep handle state a).1 ↔ ∃ panic, handle a state = .error panic := by
  unfold handleStep panics
  rcases handle a state with panic | state' <;> simp [Except.isOk, Except.toBool]

theorem handle_of_not_panics {state : σ} {a : α}
    (h : panics (handleStep handle state a).1 = false) :
    handle a state = .ok (handleStep handle state a).2 := by
  unfold handleStep panics at *
  rcases hcall : handle a state with panic | state'
  · simp [hcall, Except.isOk, Except.toBool] at h
  · rfl

theorem handed_drain : ∀ (source : Source β) (state : σ),
    (drain receive handle source state).handed =
      Machine.taken (handleStep handle) panics state (source.gotten receive)
  | [], _ => rfl
  | outcome :: source, state => by
    have ih := handed_drain source
    rcases h : receive outcome with _ | a
    · rw [Source.gotten_of_none h]
      simp only [drain, h]
      rfl
    · rw [Source.gotten_of_some h]
      rcases hcall : handle a state with panic | state'
      · simp [drain, h, hcall, Machine.taken, handleStep, panics, Except.isOk, Except.toBool]
      · simp [drain, h, hcall, Machine.taken, handleStep, panics, Except.isOk, Except.toBool, ih]

/-- Everything that arrives is handed on, in order, exactly when nothing breaks the source and no
arrival but the last panics the handler.  Whether one does is read off a part `R` of the state. -/
theorem handed_drain_iff {R : σ → τ} {next : τ → α → τ} {Panics : τ → α → Prop}
    (htakes : Source.Takes receive good f)
    (hpanic : ∀ state a, (∃ panic, handle a state = .error panic) ↔ Panics (R state) a)
    (hnext : ∀ state a state', handle a state = .ok state' → R state' = next (R state) a)
    (source : Source β) (state : σ) :
    (drain receive handle source state).handed = source.arrivals.map f ↔
      source.Unbroken good ∧ ∀ as a as', source.arrivals.map f = as ++ a :: as' → as' ≠ [] →
        ¬ Panics (as.foldl next (R state)) a := by
  obtain ⟨hpre, hgotten⟩ := Source.gotten_prefix htakes source
  have htaken := Machine.taken_prefix (handleStep handle) panics (source.gotten receive) state
  have hall := @Machine.taken_eq_iff _ _ _ (handleStep handle) _ panics R next Panics ?_ ?_
    (source.gotten receive) state
  · rw [handed_drain]
    constructor
    · intro h
      rw [h] at htaken
      have heq := hpre.eq_of_length_le htaken.length_le
      rw [heq] at h hall
      exact ⟨hgotten.1 heq, hall.1 h⟩
    · rintro ⟨hunbroken, hcalls⟩
      rw [← hgotten.2 hunbroken] at hcalls ⊢
      exact hall.2 hcalls
  · intro state a
    rw [panics_handleStep, hpanic]
  · intro state a h
    exact hnext state a _ (handle_of_not_panics h)

end Drain

/-! ## Datagrams -/

/-- The limiter after a datagram. -/
def limited (rateLimiter : RateLimiter) (d : Datagram) : RateLimiter :=
  if validReturnAddress d.srcAddr then (rateLimiter.increment d.srcAddr.ip d.now).2 else rateLimiter

/-- The datagram is let through to a handler that it panics. -/
structure Crashes (rateLimiter : RateLimiter) (d : Datagram) : Prop where
  valid : validReturnAddress d.srcAddr
  passes : (rateLimiter.increment d.srcAddr.ip d.now).1 = .ok
  standard : StandardQuery d.message
  cutShort : CutShort d.message

theorem handleDns_cases (d : Datagram) (socket : UdpSocket) (ips : ServerIps) (cs : Challenges)
    (l : RateLimiter) :
    (Crashes l d ∧ ∃ panic, handleDns d.message socket ips d.srcAddr cs l d.now = .error panic) ∨
    (¬ Crashes l d ∧
      ∃ socket', handleDns d.message socket ips d.srcAddr cs l d.now =
        .ok (socket', limited l d)) := by
  unfold handleDns limited
  cases hvalid : validReturnAddress d.srcAddr
  · exact .inr ⟨fun h => by simp [h.valid] at hvalid, socket, rfl⟩
  simp only [Bool.not_true, Bool.false_eq_true, if_false, if_true]
  rcases hinc : l.increment d.srcAddr.ip d.now with ⟨result, l'⟩
  cases result with
  | block =>
    refine .inr ⟨fun h => ?_, socket, rfl⟩
    have hpasses := h.passes
    simp [hinc] at hpasses
  | ok =>
    by_cases hcut : StandardQuery d.message ∧ CutShort d.message
    · obtain ⟨panic, hpanic⟩ := panic_of_cutShort hcut.1 hcut.2 ips cs
      refine .inl ⟨⟨hvalid, by rw [hinc], hcut.1, hcut.2⟩, panic, ?_⟩
      simp only [hpanic]
      rfl
    · obtain ⟨o, ho⟩ := exists_handleRequest hcut ips cs
      refine .inr ⟨fun h => hcut ⟨h.standard, h.cutShort⟩, ?_⟩
      simp only [ho]
      cases o <;> exact ⟨_, rfl⟩

theorem takes_recv : Source.Takes recv (fun _ => true) id := ⟨fun _ => rfl, received_error⟩

theorem handed_drainUdp_iff (ips : ServerIps) (cs : Challenges) (source : Source Datagram)
    (socket : UdpSocket) (l : RateLimiter) :
    (drainUdp ips cs source (socket, l)).handed = source.arrivals ↔
      source.Unbroken (fun _ => true) ∧ ∀ ds d ds', source.arrivals = ds ++ d :: ds' → ds' ≠ [] →
        ¬ Crashes (ds.foldl limited l) d := by
  have hpanic : ∀ (state : UdpSocket × RateLimiter) (d : Datagram),
      (∃ panic, handleDns d.message state.1 ips d.srcAddr cs state.2 d.now = .error panic) ↔
        Crashes state.2 d := by
    intro state d
    rcases handleDns_cases d state.1 ips cs state.2 with ⟨hcrash, hcall⟩ | ⟨hcrash, socket', hcall⟩
    · exact iff_of_true hcall hcrash
    · exact iff_of_false (by simp [hcall]) hcrash
  have hnext : ∀ (state : UdpSocket × RateLimiter) (d : Datagram)
      (state' : UdpSocket × RateLimiter),
      handleDns d.message state.1 ips d.srcAddr cs state.2 d.now = .ok state' →
        state'.2 = limited state.2 d := by
    intro state d state' hok
    rcases handleDns_cases d state.1 ips cs state.2 with ⟨-, panic, hcall⟩ | ⟨-, socket', hcall⟩
    · simp [hcall] at hok
    · rw [hcall, Except.ok.injEq] at hok
      rw [← hok]
  have hiff := @handed_drain_iff _ _ _ _ recv _ id _ Prod.snd limited Crashes takes_recv hpanic
    hnext source (socket, l)
  rw [List.map_id] at hiff
  exact hiff

/-! ## Connections -/

theorem takes_accept :
    Source.Takes accept (fun connection => connection.setNonblocking.isOk) Connection.stream where
  ok connection := by
    rcases connection with ⟨e | ⟨⟩, stream⟩
    · exact received_error e
    · rfl
  error := received_error

theorem handed_drainTcp_iff {π : Type} (parse : List UInt8 → Except π (Status × Request))
    (source : Source Connection) (cs : Challenges) :
    (drainTcp parse source cs).handed = source.arrivals.map Connection.stream ↔
      source.Unbroken fun connection => connection.setNonblocking.isOk := by
  have hpanic : ∀ (cs : Challenges) (stream : Stream IoError),
      (∃ panic, (handleHttp parse stream bufLen cs).map (fun served => served.challenges)
        = .error panic) ↔ False := by
    intro cs stream
    obtain ⟨served, hserved⟩ := exists_handleHttp parse stream bufLen cs
    simp [hserved, Except.map]
  have hiff := @handed_drain_iff _ _ _ Unit accept _ Connection.stream _ (fun _ => ())
    (fun _ _ => ()) (fun _ _ => False) takes_accept hpanic (fun _ _ _ _ => rfl) source cs
  exact hiff.trans (and_iff_left fun _ _ _ _ _ => not_false)

/-- A pass of the loop hands on, in order, every datagram that precedes the first time the socket
blocks, exactly when no error precedes a datagram and none but the last is one that panics.  With
connections no error may precede one, and each must be put back into blocking mode. -/
theorem drain_hands_on_iff {π : Type} (parse : List UInt8 → Except π (Status × Request))
    (serverIps : ServerIps) :
    (∀ (source : Source Datagram) (challenges : Challenges) (socket : UdpSocket)
        (rateLimiter : RateLimiter),
      (drainUdp serverIps challenges source (socket, rateLimiter)).handed = source.arrivals ↔
        source.Unbroken (fun _ => true) ∧ ∀ ds d ds', source.arrivals = ds ++ d :: ds' → ds' ≠ [] →
          ¬ Crashes (ds.foldl limited rateLimiter) d) ∧
    ∀ (source : Source Connection) (challenges : Challenges),
      (drainTcp parse source challenges).handed = source.arrivals.map Connection.stream ↔
        source.Unbroken fun connection => connection.setNonblocking.isOk := by
  exact ⟨fun source challenges socket rateLimiter =>
    handed_drainUdp_iff serverIps challenges source socket rateLimiter,
    fun source challenges => handed_drainTcp_iff parse source challenges⟩

section Aborted

/-- A client's connection, that can be put back into blocking mode. -/
def client (req : Request) : Connection where
  setNonblocking := .ok ()
  stream := { reads := [.ok req.head], accepts := fun _ => .ok (), written := [] }

/-- A client that went away before it was accepted, and then a registration. -/
def abortedFirst : Source Connection :=
  [.error ⟨.other, "Software caused connection abort"⟩, .ok (client postRequest)]

theorem drainTcp_abortedFirst :
    abortedFirst.arrivals.map Connection.stream = [(client postRequest).stream] ∧
      (drainTcp (parseAmong [postRequest]) abortedFirst Challenges.new).handed = [] ∧
      (drainTcp (parseAmong [postRequest]) abortedFirst Challenges.new).left =
        [.ok (client postRequest)] :=
  ⟨rfl, rfl, rfl⟩

end Aborted

end AcmeChampion
