import LikelyInvariants.Number.Checked
import LikelyInvariants.Sample
import LikelyInvariants.Text.Dialect
import LikelyInvariants.Invariant.Evidence

/-!
# One variable as a function of two others

Of three integer variables one is the sum, the product, the minimum or the maximum of the other
two. The functions commute, so only the position of the result matters.
-/

namespace LikelyInvariants

/-- A commutative function of two integers. -/
inductive Operation where
  | sum
  | product
  | min
  | max
deriving DecidableEq

namespace Operation

def name : Operation → String
  | sum => "Sum"
  | product => "Product"
  | min => "Min"
  | max => "Max"

/-- The function's value, if it fits in 64 bits. -/
def eval? : Operation → Int64 → Int64 → Option Int64
  | sum, a, b => a.add? b
  | product, a, b => a.mul? b
  | min, a, b => some (if a.toInt ≤ b.toInt then a else b)
  | max, a, b => some (if a.toInt ≤ b.toInt then b else a)

end Operation

/-- The result, taken out of a triple, and the two others in order. -/
def pickResult {α : Type} (result : Fin 3) (x y z : α) : α × α × α :=
  match result with
  | 0 => (x, y, z)
  | 1 => (y, x, z)
  | 2 => (z, x, y)

/-- The variable at the result's position is the function of the other two. -/
structure Combination where
  op : Operation
  result : Fin 3
  samples : Nat := 0
deriving DecidableEq

namespace Combination

def add? (t : Tuple) (count : Nat) (s : Combination) : Option Combination :=
  match t.values with
  | .int x :: .int y :: .int z :: _ =>
    let (r, a, b) := pickResult s.result x y z
    if s.op.eval? a b = some r then some { s with samples := s.samples + count } else none
  | _ => none

def detail (s : Combination) : String := s!"result={s.result.val}"

def render (s : Combination) (d : Dialect) (x y z : String) : Option String :=
  let (r, a, b) := pickResult s.result x y z
  match d, s.op with
  | .report, .sum => some s!"{r} == {a} + {b}"
  | .report, .product => some s!"{r} == {a} * {b}"
  | .report, .min => some s!"{r} == min({a}, {b})"
  | .report, .max => some s!"{r} == max({a}, {b})"
  | .prover, .sum => some s!"(EQ {r} (+ {a} {b}))"
  | .prover, .product => some s!"(EQ {r} (* {a} {b}))"
  | .prover, _ => none

end Combination

end LikelyInvariants
