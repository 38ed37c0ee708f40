import Mathlib.Data.Nat.Notation

/-!
# Addresses, the server's own addresses and the log's formats
-/

namespace AcmeChampion

abbrev Ipv4Addr := BitVec 32

abbrev Ipv6Addr := BitVec 128

inductive IpAddr
  | v4 (addr : Ipv4Addr)
  | v6 (addr : Ipv6Addr)
  deriving DecidableEq, Repr

/-- `Ipv4Addr::is_private` -/
def Ipv4Addr.isPrivate (ip : Ipv4Addr) : Bool :=
  let first := ip.toNat >>> 24
  let second := (ip.toNat >>> 16) % 256
  first = 10 ∨ (first = 172 ∧ 16 ≤ second ∧ second ≤ 31) ∨ (first = 192 ∧ second = 168)

/-- `Ipv4Addr::is_unspecified` -/
def Ipv4Addr.isUnspecified (ip : Ipv4Addr) : Bool := ip = 0

/-- `Ipv4Addr::is_broadcast` -/
def Ipv4Addr.isBroadcast (ip : Ipv4Addr) : Bool := ip = BitVec.allOnes 32

/-- `Ipv6Addr::is_unspecified` -/
def Ipv6Addr.isUnspecified (ip : Ipv6Addr) : Bool := ip = 0

def IpAddr.isUnspecified : IpAddr → Bool
  | .v4 ip => ip = 0
  | .v6 ip => ip = 0

inductive SocketAddr
  | v4 (ip : Ipv4Addr) (port : UInt16)
  | v6 (ip : Ipv6Addr) (port : UInt16) (flowinfo scopeId : UInt32)
  deriving DecidableEq, Repr

namespace SocketAddr

def new (ip : IpAddr) (port : UInt16) : SocketAddr :=
  match ip with
  | .v4 ip => .v4 ip port
  | .v6 ip => .v6 ip port 0 0

def ip : SocketAddr → IpAddr
  | .v4 ip _ => .v4 ip
  | .v6 ip _ _ _ => .v6 ip

def port : SocketAddr → UInt16
  | .v4 _ port => port
  | .v6 _ port _ _ => port

def isIpv4 : SocketAddr → Bool
  | .v4 _ _ => true
  | .v6 _ _ _ _ => false

def isIpv6 : SocketAddr → Bool
  | .v4 _ _ => false
  | .v6 _ _ _ _ => true

end SocketAddr

/-- The addresses the server answers A and AAAA queries with. -/
structure ServerIps where
  v4 : Option Ipv4Addr
  v6 : Option Ipv6Addr
  deriving DecidableEq, Repr

inductive LogFormat
  | pretty
  | plain
  deriving DecidableEq, Repr

end AcmeChampion
