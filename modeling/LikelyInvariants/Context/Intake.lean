import LikelyInvariants.Context
import LikelyInvariants.Point.Intake

/-!
# Samples in a context

A sample added to a point is fed to the point and to those of its children whose conditions select
it. The first sample opens the slices of a point that has not opened them. A sample may also flow
on along the dataflow edges of the point it was added to.
-/

namespace LikelyInvariants

/-- Whether the point takes a sample: a child takes those on which its condition is decided in its
own way. -/
def Point.selects (p : Point) (s : Sample) : Bool :=
  match p.kind with
  | .topLevel => true
  | .conditional _ splitter polarity => splitter.evaluate? p.catalog s = some polarity

/-- Opens the slices over all variables before the first sample, unless they were opened before. -/
def Point.openForFirst (fs : Factories) (controlled : Controlled) (ternary : Bool) :
    Update Point Unit := do
  let p ← get
  if p.samples = 0 && !p.viewsOpen then
    let _ ← Point.openViews 0 p.catalog.size fs controlled ternary

/-- The slot of the source and the slot of the target, for each variable that an edge carries over
and that has both, in the order of the source's variables. -/
def FlowEdge.routes (e : FlowEdge) (source target : Catalog) : List (Nat × Nat) :=
  e.transform.zipIdx.filterMap fun (goal, i) => do
    let v ← source.var? i
    let w ← target.var? (← goal)
    some (← v.slot, ← w.slot)

/-- What arrives at the target when a sample flows along an edge. Of several variables that are
mapped to one the last counts; slots that nothing is mapped to are missing. -/
def FlowEdge.carry (e : FlowEdge) (source target : Catalog) (s : Sample) : Sample :=
  let routes := (e.routes source target).reverse
  ⟨(List.range target.slotCount).map fun slot =>
    (routes.find? (·.2 = slot)).bind fun (first, _) => s.reading? first⟩

namespace Context

/-- Feeds a sample to a point and to its descendants for so many generations. -/
def addWithin : Nat → Nat → Sample → Nat → Update Context Unit
  | 0, _, _, _ => return
  | generations + 1, id, s, count => do
    let ctx ← get
    let p ← ctx.point id
    p.checkArity s
    if p.selects s then
      atPoint id do
        Point.openForFirst ctx.factories ctx.controlled !ctx.config.disableTernaryInvariants
        modify fun p => p.feed s count
      p.children.forM fun child => addWithin generations child s count

/-- Feeds a sample to a point and to its descendants, `count` times. There are no more generations
than points. -/
def add (id : Nat) (s : Sample) (count : Nat) : Update Context Unit := do
  let ctx ← get
  let _ ← ctx.point id
  addWithin ctx.points.length id s count

/-- Feeds a sample to a point, then what it becomes along each dataflow edge to the targets. -/
def addAndFlow (id : Nat) (s : Sample) (count : Nat) : Update Context Unit := do
  add id s count
  let ctx ← get
  let p ← ctx.point id
  let flows ← p.dataflow.mapM fun e => do
    let q ← ctx.point e.target
    return (e.target, e.carry p.catalog q.catalog s)
  flows.forM fun (target, carried) => add target carried count

/-- Extends a sample of the observed variables with the derived ones and lets it flow. -/
def observe (id : Nat) (raw : Sample) (count : Nat) : Update Context Unit := do
  let p ← (← get).point id
  addAndFlow id (← p.extend raw) count

end Context

end LikelyInvariants
