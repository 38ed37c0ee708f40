import AcmeChampion.Server

/-!
# The server without its sockets

A `Responder` does one piece of work after the other: it serves a connection, or answers a datagram
with a packet or with none.  `Work.op` and `Work.request` are what a piece of work asks of the store
and of the limiter.
-/

namespace AcmeChampion

open Text

inductive Work
  | connection (stream : Stream IoError)
  | datagram (d : Datagram)

abbrev Packet := List UInt8 × SocketAddr

structure Responder where
  challenges : Challenges
  rateLimiter : RateLimiter

/-- The operation on the store that a request asks for. -/
def Request.op (req : Request) : Option StoreOp :=
  match req.path with
  | none => none
  | some path =>
    if startsWith path registerPath then
      match challengeFromReq req with
      | .ok (.ok challenge) =>
        if req.method = some "POST" then some (.set challenge)
        else if req.method = some "DELETE" then some (.cleanup challenge)
        else none
      | _ => none
    else none

section

variable {π : Type} (parse : List UInt8 → Except π (Status × Request)) (serverIps : ServerIps)

/-- The operation of a connection is that of the whole request that its first read brings. -/
def Work.op : Work → Option StoreOp
  | .connection stream =>
    match (stream.read bufLen).1 with
    | .error _ => none
    | .ok bytes =>
      match parse bytes with
      | .ok (.complete _, req) => req.op
      | _ => none
  | .datagram _ => none

/-- What is counted of a datagram. -/
def Work.request : Work → Option RateLimiter.Request
  | .connection _ => none
  | .datagram d => if validReturnAddress d.srcAddr then some (d.srcAddr.ip, d.now) else none

namespace Responder

def new : Responder := ⟨.new, .new⟩

def answer (r : Responder) : Work → Checked (Option Packet) × Responder
  | .connection stream =>
    match handleHttp parse stream bufLen r.challenges with
    | .ok served => (.ok none, { r with challenges := served.challenges })
    | .error panic => (.error panic, r)
  | .datagram d =>
    if validReturnAddress d.srcAddr then
      match r.rateLimiter.increment d.srcAddr.ip d.now with
      | (.block, rateLimiter) => (.ok none, { r with rateLimiter })
      | (.ok, rateLimiter) =>
        ((handleRequest d.message serverIps r.challenges).map fun response =>
          response.map fun bytes => (bytes, d.srcAddr), { r with rateLimiter })
    else (.ok none, r)

/-- Work comes with the token of its socket. -/
def step (r : Responder) (item : Token × Work) : Checked (Option Packet) × Responder :=
  r.answer parse serverIps item.2

/-- The responder that starts anew and has done the work. -/
def after (items : List (Token × Work)) : Responder :=
  Machine.final (step parse serverIps) new items

/-- The operations that the work performs on the store. -/
def ops (items : List (Token × Work)) : List StoreOp := items.filterMap fun item => item.2.op parse

/-- The requests that the work has counted. -/
def requests (items : List (Token × Work)) : List RateLimiter.Request :=
  items.filterMap fun item => item.2.request

end Responder

end

end AcmeChampion
