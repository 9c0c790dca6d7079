import LikelyInvariants.Invariant.Comparison
import LikelyInvariants.Invariant.Unary
import LikelyInvariants.Invariant.Combination

/-!
# Kinds of invariants

A kind says what an invariant states, up to the constants it picks up from samples. The kind and
the text of those constants together are the invariant's formula key: two invariants over the same
variables state the same thing when their keys are equal.
-/

namespace LikelyInvariants

/-- What an invariant states about its variables. -/
inductive Kind where
  | oneOf
  | bound (side : Side)
  | nonZero
  | elementOneOf
  | nonEmpty
  | comparison (op : Comparison)
  | linear
  | combination (op : Operation)
deriving DecidableEq

namespace Kind

def name : Kind → String
  | oneOf => "OneOf"
  | bound .lower => "LowerBound"
  | bound .upper => "UpperBound"
  | nonZero => "NonZero"
  | elementOneOf => "EltOneOf"
  | nonEmpty => "NonEmpty"
  | comparison .eq => "IntEqual"
  | comparison .ne => "IntNotEqual"
  | comparison .lt => "IntLessThan"
  | comparison .le => "IntLessEqual"
  | comparison .gt => "IntGreaterThan"
  | comparison .ge => "IntGreaterEqual"
  | linear => "Linear"
  | combination op => "FunctionBinary" ++ op.name

/-- The number of variables the invariant is about. -/
def arity : Kind → Nat
  | comparison _ | linear => 2
  | combination _ => 3
  | _ => 1

/-- Every kind, in the order in which candidates are made. -/
def all : List Kind :=
  [oneOf, bound .lower, bound .upper, nonZero, elementOneOf, nonEmpty, comparison .eq,
   comparison .ne, comparison .lt, comparison .le, comparison .gt, comparison .ge, linear,
   combination .sum, combination .product, combination .min, combination .max]

end Kind

/-- The identity of a formula up to the names of its variables. -/
structure FormulaKey where
  kind : Kind
  /-- The constants of the formula. -/
  detail : String
deriving DecidableEq

namespace FormulaKey

def text (k : FormulaKey) : String :=
  if k.detail.isEmpty then k.kind.name else s!"{k.kind.name}({k.detail})"

/-- Keys are ordered by the name of the kind, then by the constants. -/
def compare (k l : FormulaKey) : Ordering :=
  (Ord.compare k.kind.name l.kind.name).then (Ord.compare k.detail l.detail)

end FormulaKey

end LikelyInvariants
