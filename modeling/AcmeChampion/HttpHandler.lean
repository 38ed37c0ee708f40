import AcmeChampion.Challenges
import AcmeChampion.Checked

/-!
# The HTTP handler

`handleHttp` reads the stream once, hands the bytes to the parser, and serves the request that the
parser makes of them.  The parser, and what the stream's reads and writes come to, are parameters.
-/

namespace AcmeChampion

open Text

/-- `httparse::Header` -/
structure Header where
  name : String
  value : List UInt8
  deriving DecidableEq

/-- `httparse::Request` -/
structure Request where
  method : Option String
  path : Option String
  headers : List Header
  deriving DecidableEq

/-- `httparse::Status` -/
inductive Status
  | complete (offset : ℕ)
  | incomplete
  deriving DecidableEq

inductive StatusCode
  | ok
  | created
  | noContent
  | badRequest
  | notFound
  | methodNotAllowed
  deriving DecidableEq, Repr

def StatusCode.asStr : StatusCode → String
  | .ok => "200"
  | .created => "201"
  | .noContent => "204"
  | .badRequest => "400"
  | .notFound => "404"
  | .methodNotAllowed => "405"

def StatusCode.reason : StatusCode → String
  | .ok => "Ok"
  | .created => "Created"
  | .noContent => "No Content"
  | .badRequest => "Bad Request"
  | .notFound => "Not Found"
  | .methodNotAllowed => "Method Not Allowed"

inductive HttpError (ε π : Type)
  | receive (error : ε)
  | parse (error : π)
  | respond (error : ε)

/-! ## The stream -/

/-- What successive reads of the stream return, whether it takes a text that is written, and the
texts whose writing has been attempted. -/
structure Stream (ε : Type) where
  reads : List (Except ε (List UInt8))
  accepts : String → Except ε Unit
  written : List String

variable {ε π : Type}

namespace Stream

/-- A read into a buffer of `len` bytes; what does not fit is left for the next one. -/
def read (s : Stream ε) (len : ℕ) : Except ε (List UInt8) × Stream ε :=
  match s.reads with
  | [] => (.ok [], s)
  | .error e :: reads => (.error e, { s with reads })
  | .ok bytes :: reads =>
    if bytes.length ≤ len then (.ok bytes, { s with reads })
    else (.ok (bytes.take len), { s with reads := .ok (bytes.drop len) :: reads })

def write (s : Stream ε) (text : String) : Except ε Unit × Stream ε :=
  (s.accepts text, { s with written := s.written ++ [text] })

end Stream

/-- What a handler leaves behind. -/
structure Served (ε η α : Type) where
  result : Except η α
  stream : Stream ε
  challenges : Challenges

def responseText (statusCode : StatusCode) : String :=
  "HTTP/1.1 " ++ statusCode.asStr ++ " " ++ statusCode.reason ++ "\r\nConnection: close\r\n\r\n"

def emptyHttpResponse (stream : Stream ε) (statusCode : StatusCode) (challenges : Challenges) :
    Served ε ε StatusCode :=
  match stream.write (responseText statusCode) with
  | (.ok (), stream) => { result := .ok statusCode, stream, challenges }
  | (.error e, stream) => { result := .error e, stream, challenges }

/-! ## The challenge of a request -/

def registerPath : String := "/register/"

/-- `&s[first..]` -/
def strFrom (s : String) (first : ℕ) : Checked String := do
  let bytes ← slice (utf8 s) first (utf8 s).length
  match fromUtf8 bytes with
  | some rest => return rest
  | none => .error (.sliceOutOfBounds first (utf8 s).length (utf8 s).length)

/-- The value of the first header of that name. -/
def Request.header (req : Request) (name : String) : Option (List UInt8) :=
  (req.headers.find? (·.name == name)).map (·.value)

def challengeFromReq (req : Request) : Checked (Except Unit Challenge) := do
  match req.path with
  | none => return .error ()
  | some path =>
    let domain := trimEndMatches '.' (← strFrom path (utf8 registerPath).length)
    match req.header "X-ACME-Challenge-Name" with
    | none => return .error ()
    | some nameHeader =>
      match fromUtf8 nameHeader with
      | none => return .error ()
      | some name =>
        let name := trimEndMatches '.' name
        match req.header "X-ACME-Challenge-Value" with
        | none => return .error ()
        | some valueHeader =>
          match fromUtf8 valueHeader with
          | none => return .error ()
          | some value => return .ok { domain, name, value }

/-- The store is changed by `update`, and `statusCode` answered, if the request has a challenge. -/
def handleChallenge (update : Challenge → Challenges) (statusCode : StatusCode) (stream : Stream ε)
    (req : Request) (challenges : Challenges) : Checked (Served ε ε StatusCode) := do
  match ← challengeFromReq req with
  | .error () => return emptyHttpResponse stream .badRequest challenges
  | .ok challenge => return emptyHttpResponse stream statusCode (update challenge)

def handleSetChallenge (stream : Stream ε) (req : Request) (challenges : Challenges) :
    Checked (Served ε ε StatusCode) :=
  handleChallenge challenges.set .created stream req challenges

def handleUnsetChallenge (stream : Stream ε) (req : Request) (challenges : Challenges) :
    Checked (Served ε ε StatusCode) :=
  handleChallenge challenges.cleanup .noContent stream req challenges

/-! ## Serving a connection -/

def serve (stream : Stream ε) (req : Request) (challenges : Challenges) :
    Checked (Served ε ε StatusCode) :=
  match req.method, req.path with
  | none, _ => .ok (emptyHttpResponse stream .badRequest challenges)
  | _, none => .ok (emptyHttpResponse stream .badRequest challenges)
  | some method, some path =>
    if method = "GET" ∧ path = "/" then .ok (emptyHttpResponse stream .ok challenges)
    else if method = "POST" ∧ startsWith path registerPath then
      handleSetChallenge stream req challenges
    else if method = "DELETE" ∧ startsWith path registerPath then
      handleUnsetChallenge stream req challenges
    else if startsWith path registerPath then
      .ok (emptyHttpResponse stream .methodNotAllowed challenges)
    else .ok (emptyHttpResponse stream .notFound challenges)

/-- The errors of the stream are those of responding. -/
def Served.finish (served : Served ε ε StatusCode) : Served ε (HttpError ε π) Unit where
  result :=
    match served.result with
    | .ok _ => .ok ()
    | .error e => .error (.respond e)
  stream := served.stream
  challenges := served.challenges

/-- The length of the main loop's buffer. -/
def bufLen : ℕ := 1024 * 4

def handleHttp (parse : List UInt8 → Except π (Status × Request)) (stream : Stream ε) (len : ℕ)
    (challenges : Challenges) : Checked (Served ε (HttpError ε π) Unit) := do
  match stream.read len with
  | (.error e, stream) => return { result := .error (.receive e), stream, challenges }
  | (.ok bytes, stream) =>
    match parse bytes with
    | .error e => return { result := .error (.parse e), stream, challenges }
    | .ok (.incomplete, _) => return (emptyHttpResponse stream .badRequest challenges).finish
    | .ok (.complete _, req) => return (← serve stream req challenges).finish

end AcmeChampion
