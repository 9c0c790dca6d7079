import LikelyInvariants.Partition

/-!
# Classes of equal variables

The equalities between pairs of variables say, taken together, that all variables of a class are
equal. It is enough to say that each of them equals the first one, the leader.
-/

namespace LikelyInvariants

/-- At least two variables that are all equal. -/
structure EqualityClass where
  /-- The position of the first variable. -/
  leader : Nat
  /-- The positions of the others, ascending. -/
  others : List Nat
deriving DecidableEq

namespace EqualityClass

def members (c : EqualityClass) : List Nat := c.leader :: c.others

/-- The class of some variables, unless there are fewer than two. -/
def ofMembers? (vars : List Nat) : Option EqualityClass :=
  match vars.mergeSort with
  | leader :: other :: others => some { leader, others := other :: others }
  | _ => none

/-- The classes that some equalities make, in the order of their leaders. Smaller positions stand
above greater ones. -/
def ofPairs (pairs : List (Nat × Nat)) : List EqualityClass :=
  ((Partition.ofPairs (fun a b => a < b) pairs).filterMap ofMembers?).mergeSort fun c d =>
    c.leader ≤ d.leader

end EqualityClass

end LikelyInvariants
