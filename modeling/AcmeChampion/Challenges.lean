import AcmeChampion.Lib.Text

/-!
# The store of registered challenges
-/

namespace AcmeChampion

open Text

structure Challenge where
  domain : String
  name : String
  value : String
  deriving DecidableEq

namespace Challenge

def «matches» (c : Challenge) (name : String) : Bool := eqIgnoreAsciiCase (utf8 c.name) (utf8 name)

end Challenge

/-- The registered challenges, oldest first. -/
structure Challenges where
  list : List Challenge
  deriving DecidableEq

namespace Challenges

def maxLen : ℕ := 100

def new : Challenges := ⟨[]⟩

def any (cs : Challenges) (name : String) : Bool := cs.list.any (·.matches name)

/-- The values registered under a name, in the order of registration. -/
def named (cs : Challenges) (name : String) : List String :=
  (cs.list.filter (·.matches name)).map (·.value)

def set (cs : Challenges) (challenge : Challenge) : Challenges :=
  let list := cs.list ++ [challenge]
  if list.length > maxLen then ⟨list.tail⟩ else ⟨list⟩

def cleanup (cs : Challenges) (challenge : Challenge) : Challenges :=
  ⟨cs.list.filter (· ≠ challenge)⟩

end Challenges

/-- What the HTTP API does to the store. -/
inductive StoreOp
  | set (challenge : Challenge)
  | cleanup (challenge : Challenge)
  deriving DecidableEq

namespace Challenges

def apply (cs : Challenges) : StoreOp → Challenges
  | .set challenge => cs.set challenge
  | .cleanup challenge => cs.cleanup challenge

/-- The store after the operations, from a new one. -/
def run (ops : List StoreOp) : Challenges := ops.foldl apply new

end Challenges

end AcmeChampion
