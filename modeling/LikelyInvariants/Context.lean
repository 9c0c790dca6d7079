import LikelyInvariants.Config
import LikelyInvariants.Point.Growth
import LikelyInvariants.Point.Views
import LikelyInvariants.Prover.Bridge

/-!
# Contexts

A context holds the program points, what is looked for and derived at them, and the bridge to the
prover. Points are numbered in the order in which they are added and are never removed, so a number
keeps its meaning. Names are unique among the points of a context.
-/

namespace LikelyInvariants

/-- All points, with what they share. -/
structure Context where
  config : Config
  /-- Whether a derived variable is not created, by its name. -/
  omit? : Option (String → Bool) := none
  factories : Factories
  rules : Rules
  /-- The slices that are not opened; none, unless stated. -/
  controlled : Controlled := fun _ _ => false
  points : List Point := []
  /-- Pairs of a point and one that controls it, in the order in which they were added. -/
  controls : List (Nat × Nat) := []
  bridge : Bridge := .disabled

namespace Context

def deriveSettings (ctx : Context) : DeriveSettings where
  maxDepth := ctx.config.maxDerivationDepth
  omit? := ctx.omit?

/-- The point of a number. -/
def point (ctx : Context) (id : Nat) : Except Error Point :=
  match ctx.points[id]? with
  | some p => .ok p
  | none => .error .unknownPoint

/-- The number of the point of a name. -/
def lookup? (ctx : Context) (name : String) : Option Nat :=
  ctx.points.findIdx? (·.name = name)

/-- The points that control a point, in the order in which they were recorded. -/
def controllers (ctx : Context) (id : Nat) : List Nat :=
  ctx.controls.filterMap fun (p, q) => if p = id then some q else none

/-- Adds a point and gives its number. -/
def addPoint (p : Point) : Update Context Nat := do
  let ctx ← get
  if (ctx.lookup? p.name).isSome then throw (.duplicatePoint p.name)
  set { ctx with points := ctx.points ++ [p] }
  return ctx.points.length

/-- Carries out a step at one point; the rest of the context stays as it is. -/
def atPoint {α : Type} (id : Nat) (step : Update Point α) : Update Context α := do
  let ctx ← get
  let p ← ctx.point id
  let (result, q) := step.run.run p
  set { ctx with points := ctx.points.set id q }
  result

/-- Says whether the invariants of a point hold of an object before and after each call. -/
def setObject (id : Nat) (isObject : Bool) : Update Context Unit :=
  atPoint id (modify fun p => { p with isObject })

/-- Opens the slices of a point over a range and gives their number. -/
def openViews (id min limit : Nat) : Update Context Nat := do
  let ctx ← get
  atPoint id
    (Point.openViews min limit ctx.factories ctx.controlled !ctx.config.disableTernaryInvariants)

/-- The descendants of a point, each before its own children, for so many generations. -/
def descendantsWithin (ctx : Context) : Nat → Nat → List Nat
  | 0, _ => []
  | generations + 1, id =>
    (ctx.points[id]?.elim [] Point.children).flatMap fun child =>
      child :: ctx.descendantsWithin generations child

/-- The descendants of a point, each before its own children. There are no more generations than
points. -/
def descendants (ctx : Context) (id : Nat) : List Nat :=
  ctx.descendantsWithin ctx.points.length id

/-- Fails when some descendant of a point may not take over more variables. -/
def checkDescendants (ctx : Context) (id : Nat) : Except Error Unit := do
  let _ ← ctx.point id
  (ctx.descendants id).forM fun child => do (← ctx.point child).checkFollows

/-- Gives the variables of a point to its descendants, as far as they may take them over. -/
def shareVariables (id : Nat) : Update Context Unit := do
  let ctx ← get
  let p ← ctx.point id
  (ctx.descendants id).forM fun child => atPoint child p.follow

/-- Adds variables to a point and its descendants and gives the range of their positions. -/
def addVariables (id : Nat) (vars : List Declaration) : Update Context (Nat × Nat) := do
  if !vars.isEmpty then (← get).checkDescendants id
  let (first, limit) ← atPoint id (Point.addVariables vars)
  if first < limit then shareVariables id
  return (first, limit)

/-- Derives variables at a point and its descendants until nothing new comes of it, and gives the
number of new ones. -/
def createDerived (id : Nat) : Update Context Nat := do
  let ctx ← get
  let p ← ctx.point id
  let pending ← p.derivePass ctx.rules ctx.deriveSettings p.derivedThrough p.catalog.size
  if !pending.isEmpty then ctx.checkDescendants id
  let added ← atPoint id (Point.createDerived ctx.rules ctx.deriveSettings)
  if added > 0 then shareVariables id
  return added

end Context

end LikelyInvariants
