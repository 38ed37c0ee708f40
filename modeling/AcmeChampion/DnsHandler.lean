import AcmeChampion.Challenges
import AcmeChampion.Dns.Message
import AcmeChampion.Logger
import AcmeChampion.RateLimiter

/-!
# The DNS handler

`handleRequest` is the bytes of the response that `buildResponse` makes, and `logAnswered` what is
logged of one that was looked up.  `handleDns` is what is done with a datagram: a message from an
address that can be answered, and that the rate limiter lets through, is handled, and its response
sent.  The clock's reading, and what sending comes to, are parameters.
-/

namespace AcmeChampion

/-- The answers that the store and the server's addresses hold for a name and type. -/
def addAnswers (response : Response) (queryName : List UInt8) (queryType : ValidQueryType)
    (challengeKey : String) (serverIps : ServerIps) (challenges : Challenges) :
    Checked Response :=
  match queryType with
  | .txt =>
    .ok ((challenges.named challengeKey).foldl (·.addTxtAnswer queryName ·) response)
  | .soa => .ok (if challenges.any challengeKey then response.addSoaAnswer queryName else response)
  | .ns => if challenges.any challengeKey then response.addNsAnswer queryName else .ok response
  | .a =>
    .ok (match serverIps.v4 with
      | some ip => response.addAAnswer queryName ip
      | none => response)
  | .aaaa =>
    .ok (match serverIps.v6 with
      | some ip => response.addAaaaAnswer queryName ip
      | none => response)

def setRcode (response : Response) : Response :=
  if response.answers.isEmpty then response.setRcodeNxdomain else response.setRcodeNoerror

def buildResponse (message : List UInt8) (serverIps : ServerIps) (challenges : Challenges) :
    Checked (Option Response) := do
  match ← responseForMessage message with
  | .dontRespond => return none
  | .earlyExit response => return some response
  | .process response queryName queryType challengeKey =>
    let response ← addAnswers response queryName queryType challengeKey serverIps challenges
    return some (setRcode response)

def logAnswered (response : Response) (queryType : ValidQueryType) (challengeKey : String) :
    Logger.Record where
  level := .info
  target := "acme_champion::dns_handler"
  args := "answered DNS query"
  keyValues := [("id", response.transactionId.toNat.repr), ("challenge_name", challengeKey),
    ("rcode", response.rcode.debug), ("type", queryType.debug)]

def handleRequest (message : List UInt8) (serverIps : ServerIps) (challenges : Challenges) :
    Checked (Option (List UInt8)) := do
  let response ← buildResponse message serverIps challenges
  return response.map Response.toBytes

/-- `std::io::ErrorKind`, as far as it is asked for. -/
inductive ErrorKind
  | wouldBlock
  | other
  deriving DecidableEq, Repr

/-- `std::io::Error` -/
structure IoError where
  kind : ErrorKind
  text : String
  deriving DecidableEq, Repr

/-- The sending side of a socket: what its next sends come to, and what it has sent, and to whom.
When `sends` runs out it takes what it is given. -/
structure UdpSocket where
  sends : List (Except IoError Unit)
  sent : List (List UInt8 × SocketAddr)

/-- The sends of a response: again while the socket blocks. -/
def sendLoop (response : List UInt8) (srcAddr : SocketAddr)
    (sent : List (List UInt8 × SocketAddr)) : List (Except IoError Unit) → UdpSocket
  | [] => { sends := [], sent := sent ++ [(response, srcAddr)] }
  | .ok () :: sends => { sends, sent := sent ++ [(response, srcAddr)] }
  | .error e :: sends =>
    match e.kind with
    | .wouldBlock => sendLoop response srcAddr sent sends
    | .other => { sends, sent }

def validReturnAddress (srcAddr : SocketAddr) : Bool :=
  if srcAddr.port = 0 then false
  else
    match srcAddr.ip with
    | .v4 addr => !(addr.isUnspecified || addr.isBroadcast)
    | .v6 addr => !addr.isUnspecified

def handleDns (message : List UInt8) (socket : UdpSocket) (serverIps : ServerIps)
    (srcAddr : SocketAddr) (challenges : Challenges) (rateLimiter : RateLimiter) (now : ℤ) :
    Checked (UdpSocket × RateLimiter) :=
  if !validReturnAddress srcAddr then .ok (socket, rateLimiter)
  else
    match rateLimiter.increment srcAddr.ip now with
    | (.block, rateLimiter) => .ok (socket, rateLimiter)
    | (.ok, rateLimiter) => do
      match ← handleRequest message serverIps challenges with
      | none => return (socket, rateLimiter)
      | some response => return (sendLoop response srcAddr socket.sent socket.sends, rateLimiter)

end AcmeChampion
