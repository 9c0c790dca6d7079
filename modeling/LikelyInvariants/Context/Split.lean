import LikelyInvariants.Context
import LikelyInvariants.Implication.Canonical
import LikelyInvariants.Implication.OfChildren

/-!
# Splitting points

A splitter gives a point two children, one for the samples that do not satisfy its condition and
one for those that do. Once both have seen samples, what they differ on becomes implications of the
parent.
-/

namespace LikelyInvariants

/-- Whether two points are the two children of one condition. -/
def Point.isOpposite (p q : Point) : Bool :=
  match p.kind, q.kind with
  | .conditional _ s polarity, .conditional _ t other =>
    polarity ≠ other && s.condition = t.condition
  | _, _ => false

/-- Neighbours that are the two children of one condition, paired from the front. -/
def siblingPairs : List (Nat × Point) → List ((Nat × Point) × (Nat × Point))
  | p :: q :: rest =>
    if p.2.isOpposite q.2 then (p, q) :: siblingPairs rest else siblingPairs (q :: rest)
  | _ => []

/-- The point with more implications, without those that became superfluous. -/
def Point.addImplications (p : Point) (imps : List Implication) : Point :=
  let held := imps.foldl (fun held i => if i ∈ held then held else held ++ [i]) p.implications
  { p with implications := Implication.canonicalize held }

/-- The point with more terms that hold on both sides of a split, one for each source. -/
def Point.addUnconditional (p : Point) (terms : List Term) : Point :=
  { p with
    unconditional := terms.foldl
      (fun held t => if held.any (·.source = t.source) then held else held ++ [t])
      p.unconditional }

namespace Context

/-- Adds the child for a condition and a polarity and gives its number. -/
def addChild (id : Nat) (s : Splitter) (polarity : Bool) : Update Context Nat := do
  let p ← (← get).point id
  let child ← addPoint (p.child id s polarity)
  atPoint id <| modify fun p => { p with children := p.children ++ [child] }
  return child

/-- Adds the children for each splitter that is about a variable of the point, and gives their
numbers. The child for the negated condition comes first. -/
def split (id : Nat) (splitters : List Splitter) : Update Context (List Nat) := do
  let added ← splitters.mapM fun s => do
    let p ← (← get).point id
    if s.isValidFor p.catalog then
      let first ← addChild id s false
      let second ← addChild id s true
      return [first, second]
    else return []
  return added.flatten

/-- The child of a point for a condition and a polarity. -/
def child? (ctx : Context) (id : Nat) (condition : String) (polarity : Bool) :
    Except Error (Option Nat) := do
  let p ← ctx.point id
  return p.children.find? fun child =>
    match ctx.points[child]?.map Point.kind with
    | some (.conditional _ s found) => found = polarity && s.condition = condition
    | _ => false

/-- The children of a point that have seen samples: all of them, or only the first two unless the
configuration asks for all. -/
def sampledChildren (ctx : Context) (p : Point) : List (Nat × Point) :=
  let all := p.children.filterMap fun child => do
    let q ← ctx.points[child]?
    if q.samples > 0 then some (child, q) else none
  if ctx.config.pairwiseImplications then all else all.take 2

/-- Builds the implications of a point from its children and gives the number of those it has. -/
def addImplications (id : Nat) : Update Context Nat := do
  let ctx ← get
  let p ← ctx.point id
  let contrasts := (siblingPairs (ctx.sampledChildren p)).map fun (l, r) => Contrast.ofChildren l r
  let p := p.addImplications (contrasts.flatMap Contrast.implications)
  let p :=
    if ctx.config.addNonimplications then p.addUnconditional (contrasts.flatMap Contrast.shared)
    else p
  atPoint id (set p)
  return p.implications.length

end Context

end LikelyInvariants
