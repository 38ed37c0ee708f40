import AcmeChampion.Dns.Types

/-!
# The message header
-/

namespace AcmeChampion

inductive QueryHeaderError
  | tooShort
  deriving DecidableEq, Repr

inductive MessageType
  | query
  | reply
  deriving DecidableEq, Repr

inductive OpCode
  | standard
  | inverse
  | status
  | other
  deriving DecidableEq, Repr

structure QueryHeader where
  transactionId : UInt16
  messageType : MessageType
  recursionDesired : Bool
  opcode : OpCode
  numQuestions : UInt16
  deriving DecidableEq, Repr

namespace QueryHeader

def length : ℕ := 12

def fromBytes (bytes : List UInt8) : Checked (Except QueryHeaderError QueryHeader) := do
  if bytes.length < 12 then
    return .error .tooShort
  let transactionId ← u16At bytes 0
  let flags ← index bytes 2
  let messageType := if flags &&& 0b10000000 = 0 then MessageType.query else MessageType.reply
  let opcode :=
    if (flags >>> 3) &&& 0b00001111 = 0 then OpCode.standard
    else if (flags >>> 3) &&& 0b00001111 = 1 then OpCode.inverse
    else if (flags >>> 3) &&& 0b00001111 = 2 then OpCode.status
    else OpCode.other
  let recursionDesired := flags &&& 0b00000001 = 1
  let numQuestions ← u16At bytes 4
  return .ok { transactionId, messageType, recursionDesired, opcode, numQuestions }

end QueryHeader

end AcmeChampion
