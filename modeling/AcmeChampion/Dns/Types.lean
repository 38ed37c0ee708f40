import AcmeChampion.Checked
import AcmeChampion.Lib.Text

/-!
# The record types the server answers

The constants and the query types shared by the DNS code, and the bytes of its fixed-width fields.
-/

namespace AcmeChampion

open Bytes Text

def aType : UInt16 := 1
def nsType : UInt16 := 2
def soaType : UInt16 := 6
def txtType : UInt16 := 16
def aaaaType : UInt16 := 28

def acmeChallengeLabel : List UInt8 := utf8 "_acme-challenge"

inductive ValidQueryType
  | a
  | ns
  | soa
  | txt
  | aaaa
  deriving DecidableEq, Repr

/-- `query_type as u16` -/
def ValidQueryType.toU16 : ValidQueryType → UInt16
  | .a => aType
  | .ns => nsType
  | .soa => soaType
  | .txt => txtType
  | .aaaa => aaaaType

/-- `{:?}` -/
def ValidQueryType.debug : ValidQueryType → String
  | .a => "A"
  | .ns => "NS"
  | .soa => "SOA"
  | .txt => "TXT"
  | .aaaa => "AAAA"

/-- `u16::to_be_bytes` -/
def u16ToBeBytes (v : UInt16) : List UInt8 := bigEndian 2 v.toNat

/-- `u32::to_be_bytes` -/
def u32ToBeBytes (v : UInt32) : List UInt8 := bigEndian 4 v.toNat

theorem u16ToBeBytes_eq (v : UInt16) :
    u16ToBeBytes v = [UInt8.ofNat (v.toNat / 256), UInt8.ofNat v.toNat] := by
  simp [u16ToBeBytes, bigEndian]

theorem u16ToBeBytes_ofNat (n : ℕ) : u16ToBeBytes (UInt16.ofNat n) = bigEndian 2 n := by
  rw [u16ToBeBytes, UInt16.toNat_ofNat']
  exact bigEndian_mod 2 n

theorem u16At_append (pre post : List UInt8) (v : UInt16) :
    u16At (pre ++ (u16ToBeBytes v ++ post)) pre.length = .ok v := by
  have hpair := @fromBigEndian_bigEndian_of_lt 2 v.toNat v.toNat_lt
  rw [← u16ToBeBytes, u16ToBeBytes_eq] at hpair
  rw [u16ToBeBytes_eq]
  have hhi : (pre ++ ([UInt8.ofNat (v.toNat / 256), UInt8.ofNat v.toNat] ++ post))[pre.length]?
      = some (UInt8.ofNat (v.toNat / 256)) := by simp
  have hlo : (pre ++ ([UInt8.ofNat (v.toNat / 256), UInt8.ofNat v.toNat] ++ post))[pre.length + 1]?
      = some (UInt8.ofNat v.toNat) := by
    rw [List.getElem?_append_right (by omega)]
    simp
  rw [u16At_of_getElem? hhi hlo, hpair, UInt16.ofNat_toNat]

end AcmeChampion
