import AcmeChampion.DnsHandler
import AcmeChampion.HttpHandler

/-!
# The drain loops of the main loop

An event says that a socket has something to read.  The loop takes datagrams, or connections, from
it and hands each to its handler, until `recv` or `accept` returns nothing (`drain`).  What reading
the socket comes to is data here, as is what the clock reads when a datagram is handled.
-/

namespace AcmeChampion

/-- A datagram that is received: what `recv_from` has put of it into the buffer of `bufLen` octets,
the address it comes from, and what the clock reads when it is handled. -/
structure Datagram where
  message : List UInt8
  srcAddr : SocketAddr
  now : ℤ
  deriving DecidableEq, Repr

/-- A connection that is accepted, and what `set_nonblocking(false)` comes to on it. -/
structure Connection where
  setNonblocking : Except IoError Unit
  stream : Stream IoError

/-- What reading a socket comes to, each time it is read.  Behind the last one it would block. -/
abbrev Source (α : Type) := List (Except IoError α)

/-- What `recv` and `accept` make of what reading came to. -/
def received {α : Type} : Except IoError α → Option α
  | .ok a => some a
  | .error e =>
    match e.kind with
    | .wouldBlock => none
    -- the error is logged
    | .other => none

/-- The octets that `recv_from` has put into the buffer, which of a longer datagram are the first
`bufLen`. -/
def recv (outcome : Except IoError Datagram) : Option Datagram := received outcome

def accept (outcome : Except IoError Connection) : Option (Stream IoError) :=
  received (outcome.bind fun connection => connection.setNonblocking.map fun _ => connection.stream)

/-- What a loop handed to its handler, what it left in the source, and where it ended, unless the
handler panicked. -/
structure Drained (α β σ : Type) where
  handed : List α
  left : Source β
  result : Checked σ

/-- `while let Some(a) = receive(source) { handle(a) }` -/
def drain {α β σ : Type} (receive : Except IoError β → Option α) (handle : α → σ → Checked σ) :
    Source β → σ → Drained α β σ
  | [], state => { handed := [], left := [], result := .ok state }
  | outcome :: source, state =>
    match receive outcome with
    | none => { handed := [], left := source, result := .ok state }
    | some a =>
      match handle a state with
      | .error panic => { handed := [a], left := source, result := .error panic }
      | .ok state =>
        let drained := drain receive handle source state
        { drained with handed := a :: drained.handed }

def drainUdp (serverIps : ServerIps) (challenges : Challenges) (source : Source Datagram)
    (state : UdpSocket × RateLimiter) : Drained Datagram Datagram (UdpSocket × RateLimiter) :=
  drain recv (fun d state =>
    handleDns d.message state.1 serverIps d.srcAddr challenges state.2 d.now) source state

def drainTcp {π : Type} (parse : List UInt8 → Except π (Status × Request))
    (source : Source Connection) (challenges : Challenges) :
    Drained (Stream IoError) Connection Challenges :=
  -- an error of the handler is logged
  drain accept (fun stream challenges =>
    (handleHttp parse stream bufLen challenges).map fun served => served.challenges)
    source challenges

end AcmeChampion
