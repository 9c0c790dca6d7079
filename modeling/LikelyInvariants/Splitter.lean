import LikelyInvariants.Catalog
import LikelyInvariants.Invariant.Comparison
import LikelyInvariants.Text.Dialect

/-!
# Splitters

A splitter is a condition on one integer variable. It divides the samples of a point into those
that satisfy it, those that do not, and those in which the variable is missing or no integer, on
which it is undecided.
-/

namespace LikelyInvariants

/-- A condition that splits the samples of a point. -/
inductive Splitter where
  /-- The variable compares with a constant. -/
  | compare (var : String) (op : Comparison) (constant : Int64)
  /-- The variable, a truth value encoded as an integer, is true. -/
  | truth (var : String)
deriving DecidableEq

namespace Splitter

def var : Splitter → String
  | compare x _ _ => x
  | truth x => x

/-- The text that identifies the condition. -/
def condition : Splitter → String
  | compare x op k => s!"{x} {op.symbol} {k.toInt}"
  | truth x => s!"{x} == true"

/-- Whether the condition is about an integer variable of the catalog. -/
def isValidFor (s : Splitter) (c : Catalog) : Bool :=
  match (c.indexOf? s.var).bind c.var? with
  | some v => v.type = .int
  | none => false

/-- Whether the condition holds for an integer. -/
def holds : Splitter → Int64 → Bool
  | compare _ op k, x => op.eval x k
  | truth _, x => x.toInt ≠ 0

/-- Whether the sample satisfies the condition, where that is decided. -/
def evaluate? (s : Splitter) (c : Catalog) (sample : Sample) : Option Bool := do
  let i ← c.indexOf? s.var
  let r ← c.reading? sample i
  let x ← r.value.asInt?
  some (s.holds x)

/-- The condition, or for polarity `false` its negation, as a formula. -/
def render (s : Splitter) (polarity : Bool) (d : Dialect) : String :=
  let x := d.name s.var
  match s with
  | compare _ op k =>
    let op := if polarity then op else op.negate
    match d with
    | .report => s!"{x} {op.symbol} {k.toInt}"
    | .prover => s!"({op.proverSymbol} {x} {k.toInt})"
  | truth _ =>
    match d, polarity with
    | .report, true => s!"{x} == true"
    | .report, false => s!"{x} == false"
    | .prover, true => s!"(NEQ {x} 0)"
    | .prover, false => s!"(EQ {x} 0)"

/-- The formula, if the dialect has one for the condition. Both dialects have one for each. -/
def render? (s : Splitter) (polarity : Bool) (d : Dialect) : Option String :=
  some (s.render polarity d)

end Splitter

end LikelyInvariants
