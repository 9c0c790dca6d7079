import LikelyInvariants.Number.Checked
import LikelyInvariants.Sample
import LikelyInvariants.Text.Dialect
import LikelyInvariants.Invariant.Evidence

/-!
# Linear relations

`y == a * x + b` with integer coefficients and `a` not zero. The first two points with different
`x` fix the coefficients: the slope must be a whole number, and it and all that is computed on the
way must fit in 64 bits, otherwise there is no line. Every later point must lie on the line.
-/

namespace LikelyInvariants

/-- What is known of the line. -/
inductive LineFit where
  /-- No point was seen. -/
  | unknown
  /-- All points seen are this one. -/
  | through (x y : Int64)
  /-- The line of a slope and an intercept. -/
  | line (a b : Int64)
deriving DecidableEq

namespace LineFit

/-- Whether the line passes through a point, computed within 64 bits. -/
def passes (a b x y : Int64) : Bool :=
  ((a.mul? x).bind (·.add? b)) == some y

/-- The line through two points of different `x`. -/
def solve? (x₁ y₁ x y : Int64) : Option LineFit := do
  let dx ← x.sub? x₁
  let dy ← y.sub? y₁
  if dy.toInt = 0 then none else
  let a ← dy.divExact? dx
  let b ← (a.mul? x₁).bind y₁.sub?
  some (line a b)

/-- What is known after one more point, or nothing if there is no line through it. -/
def add? (x y : Int64) : LineFit → Option LineFit
  | unknown => some (through x y)
  | through x₁ y₁ =>
    if x = x₁ then (if y = y₁ then some (through x₁ y₁) else none) else solve? x₁ y₁ x y
  | line a b => if passes a b x y then some (line a b) else none

/-- The coefficients, once they are fixed. -/
def coefficients? : LineFit → Option (Int64 × Int64)
  | line a b => some (a, b)
  | _ => none

end LineFit

/-- The second variable is a linear function of the first. -/
structure Linear where
  fit : LineFit := .unknown
  samples : Nat := 0
deriving DecidableEq

namespace Linear

def add? (t : Tuple) (count : Nat) (s : Linear) : Option Linear :=
  match t.values with
  | .int x :: .int y :: _ => (s.fit.add? x y).map fun fit => { fit, samples := s.samples + count }
  | _ => none

def isJustified (s : Linear) : Bool := s.fit.coefficients?.isSome && minSamples ≤ s.samples

def detail (s : Linear) : String :=
  match s.fit with
  | .line a b => s!"{a.toInt},{b.toInt}"
  | _ => ""

/-- Whether the lines are parallel and not the same. -/
def excludes (s other : Linear) : Bool :=
  match s.fit, other.fit with
  | .line a₁ b₁, .line a₂ b₂ => a₁ = a₂ && b₁ ≠ b₂
  | _, _ => false

/-- The text of `a * x + b`, without a factor of one and without a term of zero. -/
def rightSide (a b : Int64) (x : String) : String :=
  let product :=
    if a.toInt = 1 then x else if a.toInt = -1 then s!"-{x}" else s!"{a.toInt} * {x}"
  if 0 < b.toInt then s!"{product} + {b.toInt}"
  else if b.toInt < 0 then s!"{product} - {b.toInt.natAbs}"
  else product

def render (s : Linear) (d : Dialect) (x y : String) : Option String :=
  match s.fit with
  | .line a b =>
    match d with
    | .report => some s!"{y} == {rightSide a b x}"
    | .prover => some s!"(EQ {y} (+ (* {a.toInt} {x}) {b.toInt}))"
  | _ => none

end Linear

end LikelyInvariants
