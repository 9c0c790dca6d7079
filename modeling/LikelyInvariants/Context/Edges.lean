import LikelyInvariants.Context

/-!
# Edges between points

Samples flow along dataflow edges. Another kind of edge records along which routes the removal of
an invariant would travel, and a third which points control which: the invariants of a controlling
point hold at the controlled one too.
-/

namespace LikelyInvariants.Context

/-- An edge between two points: every variable of the source is mapped, to one that the target
has. -/
def flowEdge (ctx : Context) (source target : Nat) (transform : List (Option Nat)) :
    Except Error FlowEdge := do
  let p ← ctx.point source
  if source = target then throw (.selfFlow p.name)
  let q ← ctx.point target
  if transform.length ≠ p.catalog.size then
    throw (.invalidTransform p.name q.name p.catalog.size transform.length)
  match transform.reduceOption.find? (q.catalog.size ≤ ·) with
  | some i => throw (.transformOutOfRange p.name q.name i q.catalog.size)
  | none => return { target, transform }

/-- Samples added to the source are from now on also added to the target. -/
def addDataflow (source target : Nat) (transform : List (Option Nat)) : Update Context Unit := do
  let edge ← (← get).flowEdge source target transform
  atPoint source <| modify fun p => { p with dataflow := p.dataflow ++ [edge] }

/-- Records a route for the removal of invariants. -/
def addInvflow (source target : Nat) (transform : List (Option Nat)) : Update Context Unit := do
  let edge ← (← get).flowEdge source target transform
  atPoint source <| modify fun p => { p with invflow := p.invflow ++ [edge] }

/-- Records that a point is controlled by another. -/
def addController (controlled controller : Nat) : Update Context Unit := do
  let ctx ← get
  let _ ← ctx.point controlled
  let _ ← ctx.point controller
  let edge := (controlled, controller)
  if controlled ≠ controller ∧ edge ∉ ctx.controls then
    set { ctx with controls := ctx.controls ++ [edge] }

/-- The points that a search visits after some already visited ones. The stack holds the points to
go on from; of the controllers of a point the last recorded one is visited first. Each step takes
one point off the stack. -/
def visitFrom (ctx : Context) : Nat → List Nat → List Nat → List Nat
  | 0, _, _ => []
  | _ + 1, _, [] => []
  | steps + 1, visited, id :: stack =>
    if id ∈ visited then ctx.visitFrom steps visited stack
    else
      let next := (ctx.controllers id).filter (· ∉ id :: visited)
      id :: ctx.visitFrom steps (id :: visited) (next.reverse ++ stack)

/-- Every point that controls a point, directly or through others, in the order of a depth-first
search. Every edge puts a point on the search's stack at most once. -/
def controllingClosure (ctx : Context) (id : Nat) : List Nat :=
  (ctx.visitFrom (ctx.controls.length + 1) [] [id]).tail

end LikelyInvariants.Context
