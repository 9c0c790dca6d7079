import LikelyInvariants.Sample
import LikelyInvariants.Text.Dialect
import LikelyInvariants.Invariant.Evidence
import LikelyInvariants.Invariant.OneOf

/-!
# Bounds, non-zero and non-empty

A bound is never falsified, it moves to the new extremum; it is justified only once enough samples
lie exactly on the extremum. The other two hold until the one value they forbid is seen.
-/

namespace LikelyInvariants

/-- Which side of the values a bound is on. -/
inductive Side where
  | lower
  | upper
deriving DecidableEq

/-- Whether `a` lies beyond `b` on the given side. -/
def Side.beyond (side : Side) (a b : Int64) : Bool :=
  match side with
  | .lower => a.toInt < b.toInt
  | .upper => b.toInt < a.toInt

/-- The values lie on one side of the extremum seen so far. -/
structure Bound where
  side : Side
  extremum : Option Int64 := none
  /-- How many samples lie on the extremum. -/
  atExtremum : Nat := 0
  samples : Nat := 0
deriving DecidableEq

namespace Bound

def add? (t : Tuple) (count : Nat) (s : Bound) : Option Bound :=
  match t.values with
  | .int v :: _ =>
    let samples := s.samples + count
    let moved : Bound := { s with extremum := some v, atExtremum := count, samples }
    match s.extremum with
    | none => some moved
    | some c =>
      if v = c then some { s with atExtremum := s.atExtremum + count, samples }
      else if s.side.beyond v c then some moved
      else some { s with samples }
  | _ => none

def isJustified (s : Bound) : Bool := minAtBound ≤ s.atExtremum

def detail (s : Bound) : String := s.extremum.elim "" fun c => toString c.toInt

/-- Whether the bounds are on opposite sides and leave no value between them. -/
def excludes (s other : Bound) : Bool :=
  match s.side, other.side, s.extremum, other.extremum with
  | .lower, .upper, some low, some high => high.toInt < low.toInt
  | .upper, .lower, some high, some low => high.toInt < low.toInt
  | _, _, _, _ => false

def render (s : Bound) (d : Dialect) (x : String) : Option String :=
  s.extremum.map fun c =>
    let op := match s.side with
      | .lower => ">="
      | .upper => "<="
    match d with
    | .report => s!"{x} {op} {c.toInt}"
    | .prover => s!"({op} {x} {c.toInt})"

end Bound

/-- The value is not zero, or not `null` for an object identity. -/
structure NonZero where
  hashcode : Bool
  samples : Nat := 0
deriving DecidableEq

namespace NonZero

def add? (t : Tuple) (count : Nat) (s : NonZero) : Option NonZero :=
  match t.values with
  | .int v :: _ => if v.toInt = 0 then none else some { s with samples := s.samples + count }
  | _ => none

def render (s : NonZero) (d : Dialect) (x : String) : String :=
  let zero := constantText s.hashcode (.int 0)
  match d with
  | .report => s!"{x} != {zero}"
  | .prover => s!"(NEQ {x} {zero})"

end NonZero

/-- The sequence has an element. -/
structure NonEmpty where
  samples : Nat := 0
deriving DecidableEq

namespace NonEmpty

def add? (t : Tuple) (count : Nat) (s : NonEmpty) : Option NonEmpty :=
  match t.values.map Value.length? with
  | some (_ + 1) :: _ => some { samples := s.samples + count }
  | _ => none

def render (d : Dialect) (x : String) : Option String :=
  match d with
  | .report => some s!"size({x}) >= 1"
  | .prover => none

end NonEmpty

end LikelyInvariants
