import AcmeChampion.ParseConfig
import AcmeChampion.Server

/-!
# Startup

`start` is what `main_loop` does before its loop: it binds the sockets, registers them with the poll
and becomes the configured user.  `main` reads the configuration, starts, and runs the loop.  What
is asked of the system is a list of `Action`s, each with the user that the process was when it
asked; what the system answers is a `System`.
-/

namespace AcmeChampion

abbrev Uid := UInt32

inductive Action
  | bindTcp (addr : SocketAddr)
  | bindUdp (addr : SocketAddr)
  | createPoll
  | register (token : Token)
  | setuid (uid : Uid)
  deriving DecidableEq, Repr

/-- The user that the process is, and what it has asked of the system. -/
structure Process where
  euid : Uid
  asked : List (Uid × Action)
  deriving DecidableEq, Repr

/-- What the system answers; a UDP socket that is bound comes with what its sends will come to. -/
structure System where
  bindTcp : SocketAddr → Except IoError Unit
  bindUdp : List (Uid × Action) → SocketAddr → Except IoError (List (Except IoError Unit))
  createPoll : Except IoError Unit
  register : Token → Except IoError Unit
  getpwnam : String → Option Uid
  setuid : Uid → Except IoError Unit

inductive SetUserError
  | invalidUsername (username : String)
  | noSuchUser (username : String)
  | setUidError (error : IoError)
  deriving DecidableEq, Repr

/-- What ends `main_loop` before its loop. -/
inductive StartError
  | bind (error : IoError)
  | poll (error : PollError)
  | setUser (error : SetUserError)
  deriving DecidableEq, Repr

abbrev Start := EStateM StartError Process

namespace Startup

def ask (action : Action) : Start Unit :=
  modify fun p => { p with asked := p.asked ++ [(p.euid, action)] }

def raising {α : Type} (wrap : IoError → StartError) : Except IoError α → Start α
  | .ok a => return a
  | .error e => throw (wrap e)

variable (system : System)

def bindTcpListener (port : UInt16) : Start Unit := do
  let addr := SocketAddr.v4 0x7F000001 port
  ask (.bindTcp addr)
  raising .bind (system.bindTcp addr)

def bindUdpSocket (addr : Option SocketAddr) (required : Bool) :
    Start (Option (List (Except IoError Unit))) :=
  match addr with
  | some addr => do
    let asked := (← get).asked
    ask (.bindUdp addr)
    match system.bindUdp asked addr with
    | .ok sends => return some sends
    | .error e => if required then throw (.bind e) else return none
  | none => return none

def createPoll : Start Unit := do
  ask .createPoll
  raising (fun source => .poll { source, message := "could not create event poll" })
    system.createPoll

def register (token : Token) (message : String) : Start Unit := do
  ask (.register token)
  raising (fun source => .poll { source, message }) (system.register token)

def registerUdp (token : Token) (socket : Option (List (Except IoError Unit))) : Start Unit :=
  if socket.isSome then
    register system token "could not register UDP socket for wakeup events"
  else return ()

def setUser (username : String) : Start Unit := do
  -- a process that is not the superuser's stays as it is
  if (← get).euid ≠ 0 then return ()
  -- `CString::new`
  if '\x00' ∈ username.toList then throw (.setUser (.invalidUsername username))
  match system.getpwnam username with
  | none => throw (.setUser (.noSuchUser username))
  | some uid =>
    ask (.setuid uid)
    raising (fun e => .setUser (.setUidError e)) (system.setuid uid)
    modify ({ · with euid := uid })

def start (config : Config) : Start Server := do
  bindTcpListener system config.httpPort
  let dnsSocket4 ← bindUdpSocket system config.dnsAddr4 true
  let dnsSocket6 ← bindUdpSocket system config.dnsAddr6 config.requireV6
  createPoll system
  register system .tcpListener "could not register TCP listener for wakeup events"
  registerUdp system .udpSocket4 dnsSocket4
  registerUdp system .udpSocket6 dnsSocket6
  if let some username := config.username then
    setUser system username
  return .new dnsSocket4 dnsSocket6

end Startup

/-- How the program ends: with its usage, with an error of the arguments, or with an error or a
panic of `main_loop`. -/
inductive Exit
  | usage
  | arguments (error : ConfigError)
  | start (error : StartError)
  | stop (stop : Stop)
  deriving DecidableEq

/-- The program after what has happened so far, and the process that it is. -/
def main {π : Type} (parse : List UInt8 → Except π (Status × Request)) (std : Std) (system : System)
    (euid : Uid) (env : String → Option String) (args : List String)
    (happenings : List Happening) : EStateM.Result Exit Process Server :=
  let process : Process := { euid, asked := [] }
  match parseConfig std env args with
  | .error .justPrintUsage => .error .usage process
  | .error e => .error (.arguments e) process
  | .ok config =>
    match Startup.start system config process with
    | .error e process => .error (.start e) process
    | .ok server process =>
      match server.mainLoop parse config.serverIps happenings with
      | .error stop => .error (.stop stop) process
      | .ok server => .ok server process

end AcmeChampion
