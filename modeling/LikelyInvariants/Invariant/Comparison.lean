import LikelyInvariants.Value

/-!
# Comparisons of integers

The six comparison operators. An operator is determined by the orderings of its two sides under
which it holds: negation is the complement, and two operators exclude each other when no ordering
satisfies both.
-/

namespace LikelyInvariants

/-- An integer comparison operator. -/
inductive Comparison where
  | eq
  | ne
  | lt
  | le
  | gt
  | ge
deriving DecidableEq

namespace Comparison

/-- Whether the operator holds when its sides are in the given order. -/
def allows : Comparison → Ordering → Bool
  | eq, o => o == .eq
  | ne, o => o != .eq
  | lt, o => o == .lt
  | le, o => o != .gt
  | gt, o => o == .gt
  | ge, o => o != .lt

/-- Whether the operator holds between two integers. -/
def eval (op : Comparison) (a b : Int64) : Bool := op.allows (compareInt a b)

/-- The operator that holds exactly where this one does not. -/
def negate : Comparison → Comparison
  | eq => ne
  | ne => eq
  | lt => ge
  | le => gt
  | gt => le
  | ge => lt

/-- Whether no two integers satisfy both operators. -/
def excludes (op other : Comparison) : Bool :=
  [Ordering.lt, .eq, .gt].all fun o => !(op.allows o && other.allows o)

/-- The operator's sign in the report. -/
def symbol : Comparison → String
  | eq => "=="
  | ne => "!="
  | lt => "<"
  | le => "<="
  | gt => ">"
  | ge => ">="

/-- The operator's name for the prover. -/
def proverSymbol : Comparison → String
  | eq => "EQ"
  | ne => "NEQ"
  | op => op.symbol

/-- The operator's name. -/
def name : Comparison → String
  | eq => "Eq"
  | ne => "Ne"
  | lt => "Lt"
  | le => "Le"
  | gt => "Gt"
  | ge => "Ge"

end Comparison

end LikelyInvariants
