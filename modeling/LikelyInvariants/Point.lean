import LikelyInvariants.Derivation
import LikelyInvariants.Error
import LikelyInvariants.Implication.Term
import LikelyInvariants.Slice
import LikelyInvariants.Splitter

/-!
# Program points

A program point owns its variables, the derivations of those that are derived, and the slices of
invariants over them. Points refer to each other by number. A point is either at the top level or a
child, which sees the samples of its parent that its splitter selects. What was found redundant is
only marked; it stays in the point.
-/

namespace LikelyInvariants

/-- A route along which samples go to another point: the position in the target's catalog for each
variable of the source, or nothing for a variable that is left behind. -/
structure FlowEdge where
  target : Nat
  transform : List (Option Nat)
deriving DecidableEq

/-- Whether a point is a child, and of which condition. -/
inductive PointKind where
  | topLevel
  | conditional (parent : Nat) (splitter : Splitter) (polarity : Bool)
deriving DecidableEq

def PointKind.isConditional : PointKind → Bool
  | topLevel => false
  | conditional _ _ _ => true

/-- Something that follows from the other invariants of its point. -/
inductive Redundant where
  | term (source : TermSource)
  /-- The equality of a class of variables, named by the first of them. -/
  | leader (var : Nat)
  | implication (predicate consequent : TermSource)
deriving DecidableEq

/-- Terms come first, then classes of equal variables, then implications. -/
def Redundant.compare : Redundant → Redundant → Ordering
  | term s, term t => s.compare t
  | term _, _ => .lt
  | leader _, term _ => .gt
  | leader v, leader w => Ord.compare v w
  | leader _, implication _ _ => .lt
  | implication p c, implication q d => (p.compare q).then (c.compare d)
  | implication _ _, _ => .gt

/-- Puts a mark in its place among ordered marks, unless it is there. -/
def insertMark (m : Redundant) : List Redundant → List Redundant
  | [] => [m]
  | n :: ns =>
    match m.compare n with
    | .lt => m :: n :: ns
    | .eq => n :: ns
    | .gt => n :: insertMark m ns

/-- A program point. -/
structure Point where
  name : String
  kind : PointKind := .topLevel
  catalog : Catalog := {}
  /-- The derivation of each derived variable with the variable's position, in catalog order. -/
  derivations : List (Nat × Derivation) := []
  /-- How many variables have been derived from already. -/
  derivedThrough : Nat := 0
  /-- The open slices, ordered by their keys. -/
  slices : List Slice := []
  samples : Nat := 0
  viewsOpen : Bool := false
  /-- The number the next invariant gets. -/
  nextId : Nat := 0
  dataflow : List FlowEdge := []
  invflow : List FlowEdge := []
  children : List Nat := []
  implications : List Implication := []
  /-- Terms that hold on both sides of a split. -/
  unconditional : List Term := []
  /-- What was found redundant, in order, each once. -/
  redundant : List Redundant := []
  /-- Whether the invariants hold of an object before and after each call. -/
  isObject : Bool := false
deriving DecidableEq

/-- Something a point holds to be true. -/
inductive Finding where
  | sliced (s : Slice) (e : SliceEntry)
  | implication (i : Implication)
  | unconditional (t : Term)

/-- Whether there is enough evidence to report it. -/
def Finding.isWorthReporting : Finding → Bool
  | sliced _ e => e.inv.isJustified
  | implication _ | unconditional _ => true

namespace Point

/-- A point at the top level with some variables. -/
def ofVariables (name : String) (vars : List Declaration) : Point :=
  { name, catalog := Catalog.ofList vars }

/-- The child for a splitter and a polarity. It has the variables of its parent. -/
def child (parent : Point) (id : Nat) (s : Splitter) (polarity : Bool) : Point :=
  let negation := if polarity then "" else "not "
  { name := s!"{parent.name};condition=\"{negation}{s.condition}\""
    kind := .conditional id s polarity
    catalog := parent.catalog
    derivations := parent.derivations
    derivedThrough := parent.derivedThrough }

/-- The number of values in a sample without the derived variables. -/
def observedCount (p : Point) : Nat := p.catalog.slotCount - p.derivations.length

/-- Everything the point holds to be true: the invariants of its slices in order, then the
implications, then what holds on both sides of a split. -/
def findings (p : Point) : List Finding :=
  (p.slices.flatMap fun s => s.entries.map (Finding.sliced s)) ++
    p.implications.map Finding.implication ++ p.unconditional.map Finding.unconditional

/-- Whether the point has no edge along which its variables are mapped. -/
def hasNoEdges (p : Point) : Bool := p.dataflow.isEmpty && p.invflow.isEmpty

/-- Fails when a child may not take over more variables from its parent. -/
def checkFollows (p : Point) : Except Error Unit :=
  if p.viewsOpen then .error (.catalogFrozen p.name)
  else if !p.hasNoEdges then .error (.flowSourceFrozen p.name)
  else .ok ()

/-- Fails when the point may not get variables of its own. -/
def checkGrows (p : Point) : Except Error Unit :=
  if p.viewsOpen || p.kind.isConditional then .error (.catalogFrozen p.name) else .ok ()

/-- Fails when the edges of the point would not map a new variable. -/
def checkNoEdges (p : Point) : Except Error Unit :=
  if p.hasNoEdges then .ok () else .error (.flowSourceFrozen p.name)

end Point

end LikelyInvariants
