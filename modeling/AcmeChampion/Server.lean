import AcmeChampion.MainLoop

/-!
# The main loop

A `Server` is what `main_loop` has when it enters its loop: its sockets, each with what reading it
will come to, the store and the limiter.  While the loop runs more arrives at the sockets, and the
poll announces events, in any order.  `mainLoop` is the server after what has happened so far.
-/

namespace AcmeChampion

/-- The tokens of the registered sockets. -/
inductive Token
  | tcpListener
  | udpSocket4
  | udpSocket6
  | other
  deriving DecidableEq, Repr

/-- `mio::event::Event` -/
structure Event where
  token : Token
  isReadable : Bool
  deriving DecidableEq, Repr

/-- A bound UDP socket: what reading it will come to, and its sending side. -/
structure DnsSocket where
  arriving : Source Datagram
  socket : UdpSocket

def DnsSocket.arrive (s : DnsSocket) (outcome : Except IoError Datagram) : DnsSocket :=
  { s with arriving := s.arriving ++ [outcome] }

structure Server where
  httpListener : Source Connection
  dnsSocket4 : Option DnsSocket
  dnsSocket6 : Option DnsSocket
  challenges : Challenges
  rateLimiter : RateLimiter

structure PollError where
  source : IoError
  message : String
  deriving DecidableEq, Repr

/-- What ends the loop. -/
inductive Stop
  | panic (panic : Panic)
  | poll (error : PollError)
  deriving DecidableEq, Repr

/-- What happens while the loop runs: something comes to a socket, the poll announces an event, or
it fails. -/
inductive Happening
  | connection (outcome : Except IoError Connection)
  | datagram4 (outcome : Except IoError Datagram)
  | datagram6 (outcome : Except IoError Datagram)
  | event (event : Event)
  | pollError (error : IoError)

namespace Server

/-- A server before anything has happened; the sends are those of the sockets that are bound. -/
def new (sends4 sends6 : Option (List (Except IoError Unit))) : Server where
  httpListener := []
  dnsSocket4 := sends4.map fun sends => { arriving := [], socket := { sends, sent := [] } }
  dnsSocket6 := sends6.map fun sends => { arriving := [], socket := { sends, sent := [] } }
  challenges := .new
  rateLimiter := .new

variable {π : Type} (parse : List UInt8 → Except π (Status × Request)) (serverIps : ServerIps)

def drainDns (server : Server) (socket : DnsSocket) : Checked (DnsSocket × RateLimiter) :=
  let drained := drainUdp serverIps server.challenges socket.arriving
    (socket.socket, server.rateLimiter)
  drained.result.map fun state => ({ arriving := drained.left, socket := state.1 }, state.2)

def handleEvent (server : Server) (event : Event) : Checked Server :=
  if !event.isReadable then .ok server
  else
    match event.token with
    | .tcpListener =>
      let drained := drainTcp parse server.httpListener server.challenges
      drained.result.map fun challenges => { server with httpListener := drained.left, challenges }
    | .udpSocket4 =>
      match server.dnsSocket4 with
      | some socket => (drainDns serverIps server socket).map fun drained =>
          { server with dnsSocket4 := some drained.1, rateLimiter := drained.2 }
      | none => .ok server
    | .udpSocket6 =>
      match server.dnsSocket6 with
      | some socket => (drainDns serverIps server socket).map fun drained =>
          { server with dnsSocket6 := some drained.1, rateLimiter := drained.2 }
      | none => .ok server
    | .other => .ok server

def step (server : Server) : Happening → Except Stop Server
  | .connection outcome => .ok { server with httpListener := server.httpListener ++ [outcome] }
  | .datagram4 outcome => .ok { server with dnsSocket4 := server.dnsSocket4.map (·.arrive outcome) }
  | .datagram6 outcome => .ok { server with dnsSocket6 := server.dnsSocket6.map (·.arrive outcome) }
  | .event event => (handleEvent parse serverIps server event).mapError .panic
  | .pollError source => .error (.poll { source, message := "could not poll IO events" })

def mainLoop (server : Server) (happenings : List Happening) : Except Stop Server :=
  happenings.foldlM (step parse serverIps) server

end Server

end AcmeChampion
