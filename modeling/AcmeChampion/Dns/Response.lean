import AcmeChampion.Config
import AcmeChampion.Dns.Header
import AcmeChampion.Dns.Query

/-!
# The response and its bytes
-/

namespace AcmeChampion

open Bytes Text

def inClass : UInt16 := 1

def answerTtl : UInt32 := 30

inductive ResponseCode
  | noError
  | formErr
  | nxDomain
  | refused
  deriving DecidableEq, Repr

/-- `rcode as u8` -/
def ResponseCode.toU8 : ResponseCode → UInt8
  | .noError => 0
  | .formErr => 1
  | .nxDomain => 3
  | .refused => 5

/-- `{:?}` -/
def ResponseCode.debug : ResponseCode → String
  | .noError => "NoError"
  | .formErr => "FormErr"
  | .nxDomain => "NXDomain"
  | .refused => "Refused"

structure Answer where
  name : List UInt8
  queryType : ValidQueryType
  value : List UInt8
  deriving DecidableEq

def Answer.toBytes (a : Answer) : List UInt8 :=
  a.name ++ u16ToBeBytes a.queryType.toU16 ++ u16ToBeBytes inClass ++ u32ToBeBytes answerTtl ++
    u16ToBeBytes (UInt16.ofNat a.value.length) ++ a.value

structure Response where
  transactionId : UInt16
  recursionDesired : Bool
  rcode : ResponseCode
  query : Option Query
  answers : List Answer
  deriving DecidableEq

namespace Response

def new (header : QueryHeader) : Response where
  transactionId := header.transactionId
  recursionDesired := header.recursionDesired
  rcode := .noError
  query := none
  answers := []

def setRcodeNoerror (r : Response) : Response := { r with rcode := .noError }

def setRcodeNxdomain (r : Response) : Response := { r with rcode := .nxDomain }

def push (r : Response) (answer : Answer) : Response := { r with answers := r.answers ++ [answer] }

def addAAnswer (r : Response) (name : List UInt8) (ip : Ipv4Addr) : Response :=
  r.push { name, queryType := .a, value := bigEndian 4 ip.toNat }

def addAaaaAnswer (r : Response) (name : List UInt8) (ip : Ipv6Addr) : Response :=
  r.push { name, queryType := .aaaa, value := bigEndian 16 ip.toNat }

def addTxtAnswer (r : Response) (name : List UInt8) (value : String) : Response :=
  let valueLen := UInt8.ofNat (utf8 value).length
  r.push { name, queryType := .txt, value := valueLen :: utf8 value }

def addNsAnswer (r : Response) (name : List UInt8) : Checked Response := do
  let labelLen := (← index name 0).toNat
  let value ← slice name (labelLen + 1) name.length
  return r.push { name, queryType := .ns, value }

def addSoaAnswer (r : Response) (name : List UInt8) : Response :=
  r.push {
    name
    queryType := .soa
    value := name ++ name ++ u32ToBeBytes 1 ++ u32ToBeBytes 10800 ++ u32ToBeBytes 3600 ++
      u32ToBeBytes 604800 ++ u32ToBeBytes 30 }

def toBytes (r : Response) : List UInt8 :=
  let recursionDesired : UInt8 := if r.recursionDesired then 1 else 0
  let numQuestions : UInt16 := if r.query.isSome then 1 else 0
  let numAnswers := UInt16.ofNat r.answers.length
  u16ToBeBytes r.transactionId ++
    [0b10000100 ||| recursionDesired, 0b00100000 ||| r.rcode.toU8] ++
    u16ToBeBytes numQuestions ++ u16ToBeBytes numAnswers ++ u16ToBeBytes 0 ++ u16ToBeBytes 0 ++
    (match r.query with
      | some query => query.toBytes
      | none => []) ++
    r.answers.flatMap Answer.toBytes

end Response

end AcmeChampion
