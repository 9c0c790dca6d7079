import LikelyInvariants.Invariant.Kind
import LikelyInvariants.Invariant.OneOf
import LikelyInvariants.Invariant.Unary
import LikelyInvariants.Invariant.Linear
import LikelyInvariants.Invariant.Combination
import LikelyInvariants.Catalog

/-!
# Likely invariants

A likely invariant is a property of a tuple of variables that every tuple fed to it so far
satisfies. Feeding a tuple gives the invariant that takes the tuple into account, or nothing when
the tuple falsifies it, and a falsified invariant is never fed again. An invariant knows neither
its variables' names nor its point: names are supplied when it is written out. Of a tuple that is
longer than it needs it takes the first values. A shorter one is a mistake of the caller and
falsifies it; no slice feeds such a tuple to an invariant that is not about more variables than the
slice is over.
-/

namespace LikelyInvariants

/-- A comparison of two integers. -/
structure Compared where
  op : Comparison
  samples : Nat := 0
deriving DecidableEq

/-- A property that no sample has falsified, with what it has learnt from the samples. -/
inductive Invariant where
  | oneOf (s : OneOf)
  | bound (s : Bound)
  | nonZero (s : NonZero)
  | elementOneOf (s : ElementOneOf)
  | nonEmpty (s : NonEmpty)
  | compared (s : Compared)
  | linear (s : Linear)
  | combination (s : Combination)
deriving DecidableEq

def Compared.add? (t : Tuple) (count : Nat) (s : Compared) : Option Compared :=
  match t.values with
  | .int a :: .int b :: _ => if s.op.eval a b then some { s with samples := s.samples + count } else none
  | _ => none

namespace Invariant

def kind : Invariant → Kind
  | oneOf _ => .oneOf
  | bound s => .bound s.side
  | nonZero _ => .nonZero
  | elementOneOf _ => .elementOneOf
  | nonEmpty _ => .nonEmpty
  | compared s => .comparison s.op
  | linear _ => .linear
  | combination s => .combination s.op

/-- The invariant after a tuple was seen `count` times, or nothing if the tuple falsifies it. -/
def add? (t : Tuple) (count : Nat) : Invariant → Option Invariant
  | oneOf s => (s.add? t count).map oneOf
  | bound s => (s.add? t count).map bound
  | nonZero s => (s.add? t count).map nonZero
  | elementOneOf s => (s.add? t count).map elementOneOf
  | nonEmpty s => (s.add? t count).map nonEmpty
  | compared s => (s.add? t count).map compared
  | linear s => (s.add? t count).map linear
  | combination s => (s.add? t count).map combination

/-- How many samples the invariant has accepted. -/
def samples : Invariant → Nat
  | oneOf s => s.samples
  | bound s => s.samples
  | nonZero s => s.samples
  | elementOneOf s => s.samples
  | nonEmpty s => s.samples
  | compared s => s.samples
  | linear s => s.samples
  | combination s => s.samples

/-- Whether the evidence is enough for a report. -/
def isJustified : Invariant → Bool
  | oneOf s => s.isJustified
  | bound s => s.isJustified
  | nonZero s => minSamples ≤ s.samples
  | elementOneOf s => s.isJustified
  | nonEmpty s => minSamples ≤ s.samples
  | compared s => minSamples ≤ s.samples
  | linear s => s.isJustified
  | combination s => minSamples ≤ s.samples

/-- The constants of the formula, as text. -/
def detail : Invariant → String
  | oneOf s => s.detail
  | bound s => s.detail
  | elementOneOf s => s.detail
  | linear s => s.detail
  | combination s => s.detail
  | nonZero _ | nonEmpty _ | compared _ => ""

def key (inv : Invariant) : FormulaKey := ⟨inv.kind, inv.detail⟩

/-- Whether the two can never hold of the same tuple. -/
def excludes : Invariant → Invariant → Bool
  | oneOf s, oneOf t => s.excludes t
  | oneOf s, nonZero _ => s.isZero
  | oneOf s, nonEmpty _ => s.isEmptySequence
  | nonZero _, oneOf t => t.isZero
  | nonEmpty _, oneOf t => t.isEmptySequence
  | bound s, bound t => s.excludes t
  | compared s, compared t => s.op.excludes t.op
  | linear s, linear t => s.excludes t
  | _, _ => false

/-- Whether the invariant states that two variables are equal. -/
def isEquality : Invariant → Bool
  | compared s => s.op = .eq
  | _ => false

/-- The formula over some symbols, if the dialect can express it. -/
def renderWith (d : Dialect) : List String → Invariant → Option String
  | x :: _, oneOf s => s.render d x
  | x :: _, bound s => s.render d x
  | x :: _, nonZero s => some (s.render d x)
  | x :: _, elementOneOf s => s.render d x
  | x :: _, nonEmpty _ => NonEmpty.render d x
  | x :: y :: _, compared s =>
    match d with
    | .report => some s!"{x} {s.op.symbol} {y}"
    | .prover => some s!"({s.op.proverSymbol} {x} {y})"
  | x :: y :: _, linear s => s.render d x y
  | x :: y :: z :: _, combination s => s.render d x y z
  | _, _ => none

/-- The formula over the variables of some names, which are spelled as the dialect wants them. -/
def render (d : Dialect) (names : List String) (inv : Invariant) : Option String :=
  inv.renderWith d (names.map d.name)

end Invariant

namespace Kind

/-- The fresh invariants of a kind for some variables; none if the kind is not for their types. -/
def candidates (k : Kind) (vars : List Variable) : List Invariant :=
  match k, vars with
  | oneOf, [x] => [.oneOf { type := x.type }]
  | bound side, [x] => if x.type = .int then [.bound { side }] else []
  | nonZero, [x] =>
    if x.type.isIntegral then [.nonZero { hashcode := x.type.isHashcode }] else []
  | elementOneOf, [x] => if x.type.isArray then [.elementOneOf {}] else []
  | nonEmpty, [x] => if x.type.isArray then [.nonEmpty {}] else []
  | comparison op, [x, y] =>
    if x.type = .int ∧ y.type = .int ∨
        x.type = .hashcode ∧ y.type = .hashcode ∧ (op = .eq ∨ op = .ne) then
      [.compared { op }]
    else []
  | linear, [x, y] => if x.type = .int ∧ y.type = .int then [.linear {}] else []
  | combination op, [x, y, z] =>
    if x.type = .int ∧ y.type = .int ∧ z.type = .int then
      [0, 1, 2].map fun result => .combination { op, result }
    else []
  | _, _ => []

end Kind

end LikelyInvariants
