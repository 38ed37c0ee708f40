import AcmeChampion.Config
import AcmeChampion.Lib.Machine
import AcmeChampion.Lib.MachineInt
import AcmeChampion.Lib.Table

/-!
# The rate limiter

Clock readings are whole seconds since the epoch, as `now_secs` gives them.  They are integers
here: the code's `i64` sums are these while the readings are more than `blockDurationSecs` away
from the ends of that type.  `exactIncrement` is the same function with each sum and difference
made in the code's own type, where one that leaves the type is an error.
-/

namespace AcmeChampion

/-- What the limiter holds for one address: the requests counted since a start, or a block. -/
inductive State
  | knownSince (start : ℤ) (count : UInt8)
  | blockedUntil (last : ℤ)
  deriving DecidableEq, Repr

inductive RateLimitResult
  | ok
  | block
  deriving DecidableEq, Repr

structure RateLimiter where
  states : AList fun _ : IpAddr => State

namespace RateLimiter

def blockDurationSecs : ℤ := 60 * 10
def windowSecs : ℤ := 60
def rateLimit : UInt8 := 100
def maxSize : ℕ := 100

def new : RateLimiter := ⟨∅⟩

/-- What `cleanup` keeps. -/
def unexpired (now : ℤ) : State → Bool
  | .knownSince start _ => now < start + windowSecs
  | .blockedUntil last => now < last

def cleanup (l : RateLimiter) (now : ℤ) : RateLimiter := ⟨l.states.retain (unexpired now)⟩

/-- What `increment` does to the entry of the address that sent the request. -/
def count (now : ℤ) : State → RateLimitResult × State
  | .knownSince start count =>
    if now > start + windowSecs then (.ok, .knownSince now 1)
    else
      let count := count + 1
      if count ≥ rateLimit then (.block, .blockedUntil (now + blockDurationSecs))
      else (.ok, .knownSince start count)
  | .blockedUntil last =>
    if now > last then (.ok, .knownSince now 1) else (.block, .blockedUntil last)

/-- The entry of the address, made if there is none, and then counted. -/
def enter (l : RateLimiter) (srcAddr : IpAddr) (now : ℤ) : RateLimitResult × RateLimiter :=
  let entry := (l.states.lookup srcAddr).getD (.knownSince now 0)
  ((count now entry).1, ⟨l.states.insert srcAddr (count now entry).2⟩)

def increment (l : RateLimiter) (srcAddr : IpAddr) (now : ℤ) : RateLimitResult × RateLimiter :=
  if l.states.size ≥ maxSize then
    let l := l.cleanup now
    if l.states.size ≥ maxSize then (.block, l) else l.enter srcAddr now
  else l.enter srcAddr now

/-- A request: where it comes from and what the clock reads. -/
abbrev Request := IpAddr × ℤ

def step (l : RateLimiter) (r : Request) : RateLimitResult × RateLimiter := l.increment r.1 r.2

def Reachable : RateLimiter → Prop := Machine.Reachable step new

/-! ## In the code's own integer types -/

open MachineInt

def exactUnexpired (now : ℤ) : State → Exact Bool
  | .knownSince start _ => do return now < (← i64 (start + windowSecs))
  | .blockedUntil last => return now < last

def exactCleanup (l : RateLimiter) (now : ℤ) : Exact RateLimiter := do
  return ⟨← l.states.retainM (exactUnexpired now)⟩

def exactCount (now : ℤ) : State → Exact (RateLimitResult × State)
  | .knownSince start count => do
    if now > (← i64 (start + windowSecs)) then return (.ok, .knownSince now 1)
    let count ← u8 (count.toNat + 1)
    if count ≥ rateLimit then
      let last ← i64 (now + blockDurationSecs)
      return (.block, .blockedUntil last)
    return (.ok, .knownSince start count)
  | .blockedUntil last =>
    if now > last then return (.ok, .knownSince now 1) else return (.block, .blockedUntil last)

def exactEnter (l : RateLimiter) (srcAddr : IpAddr) (now : ℤ) :
    Exact (RateLimitResult × RateLimiter) := do
  let (result, entry) ← exactCount now ((l.states.lookup srcAddr).getD (.knownSince now 0))
  return (result, ⟨l.states.insert srcAddr entry⟩)

def exactIncrement (l : RateLimiter) (srcAddr : IpAddr) (now : ℤ) :
    Exact (RateLimitResult × RateLimiter) := do
  let startingLen := l.states.size
  if startingLen ≥ maxSize then
    let l ← l.exactCleanup now
    if l.states.size ≥ maxSize then return (.block, l)
    if l.states.size ≠ startingLen then
      -- the number of purged entries, which is logged
      let _count ← usize (startingLen - l.states.size)
      l.exactEnter srcAddr now
    else l.exactEnter srcAddr now
  else l.exactEnter srcAddr now

/-- The limiter after the requests, from a new one. -/
def exactRun (rs : List Request) : Exact RateLimiter :=
  rs.foldlM (fun l r => do return (← l.exactIncrement r.1 r.2).2) new

end RateLimiter

end AcmeChampion
