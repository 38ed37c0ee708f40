import AcmeChampion.Proofs.Handler
import AcmeChampion.Proofs.Uncompressed

/-!
# Well-formed standard queries

A `StandardMessage` is a standard query with one uncompressed question for an ASCII name; its bytes
are `Answerable` whatever the rest of the header and the octets behind the question are.
-/

namespace AcmeChampion

open Bytes Text Wire

structure StandardMessage where
  id : UInt16
  flagsHi : UInt8
  flagsLo : UInt8
  ancount : UInt16
  nscount : UInt16
  arcount : UInt16
  name : Name
  queryType : UInt16
  queryClass : UInt16
  trailing : List UInt8
  standard : flagsHi.toNat < 8
  ascii : ∀ l ∈ name.labels, ∀ b ∈ l, isAscii b

namespace StandardMessage

/-- The query of class IN with every other field clear. -/
def plain (name : Name) (queryType : UInt16) (ascii : ∀ l ∈ name.labels, ∀ b ∈ l, isAscii b) :
    StandardMessage where
  id := 0
  flagsHi := 0
  flagsLo := 0
  ancount := 0
  nscount := 0
  arcount := 0
  name
  queryType
  queryClass := inClass
  trailing := []
  standard := by decide
  ascii

def question (q : StandardMessage) : Question := ⟨q.name, q.queryType, q.queryClass⟩

def header (q : StandardMessage) : List UInt8 :=
  u16ToBeBytes q.id ++ [q.flagsHi, q.flagsLo, 0, 1] ++ u16ToBeBytes q.ancount ++
    u16ToBeBytes q.nscount ++ u16ToBeBytes q.arcount

def toBytes (q : StandardMessage) : List UInt8 := q.header ++ (q.question.octets ++ q.trailing)

theorem length_header (q : StandardMessage) : q.header.length = QueryHeader.length := by
  simp [header, u16ToBeBytes, QueryHeader.length]

theorem u16At_id (q : StandardMessage) : u16At q.toBytes 0 = .ok q.id := by
  have h := u16At_append [] ([q.flagsHi, q.flagsLo, 0, 1] ++ u16ToBeBytes q.ancount ++
    u16ToBeBytes q.nscount ++ u16ToBeBytes q.arcount ++ (q.question.octets ++ q.trailing)) q.id
  simpa [toBytes, header] using h

theorem standardQuery (q : StandardMessage) : StandardQuery q.toBytes := by
  have hid := u16ToBeBytes_eq q.id
  refine ⟨?_, ⟨q.flagsHi, ?_, q.standard⟩, ?_, ?_⟩
  · rw [toBytes, List.length_append, length_header]
    omega
  · simp [toBytes, header, hid]
  · simp [toBytes, header, hid]
  · simp [toBytes, header, hid]

theorem toBytes_eq_name (q : StandardMessage) : q.toBytes = q.header ++ (nameOctets q.name.labels ++
    (u16ToBeBytes q.queryType ++ (u16ToBeBytes q.queryClass ++ q.trailing))) := by
  simp [toBytes, question, Question.octets, Name.octets, u16ToBeBytes]

theorem asks (q : StandardMessage) : Asks q.toBytes q.name.labels q.queryType q.queryClass := by
  rw [toBytes_eq_name]
  exact asks_question q.queryType q.queryClass q.trailing q.name.valid.length_lt q.length_header

theorem not_meetsPointer (q : StandardMessage) : ¬ MeetsPointer q.toBytes QueryHeader.length := by
  rw [toBytes_eq_name]
  exact AcmeChampion.not_meetsPointer _ q.name.valid.length_lt q.length_header

theorem answerable (q : StandardMessage) :
    Answerable q.toBytes q.name.labels q.queryType q.queryClass :=
  ⟨q.standardQuery, q.asks, q.ascii, q.name.valid.le_255⟩

theorem exists_response (q : StandardMessage) (ips : ServerIps) (cs : Challenges) :
    ∃ r, buildResponse q.toBytes ips cs = .ok (some r) ∧
      (r.rcode, r.answers) = outcome q.name.labels q.queryType ips cs := by
  obtain ⟨r, -, hr, -, -, -, -, -, hout⟩ := buildResponse_of_answerable ips cs q.answerable
  exact ⟨r, hr, hout⟩

end StandardMessage

end AcmeChampion
