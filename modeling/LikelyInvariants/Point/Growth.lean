import LikelyInvariants.Derivation.Pass
import LikelyInvariants.Point

/-!
# New variables of a point

A point gets new variables from outside or by derivation, as long as none of its slices is open.
Derivation goes on from the variables that were not derived from yet: each pass derives from the
variables the pass before it added, until a pass adds none. A variable that the `k`-th pass adds
has depth at least `k`, and none is derived from variables of the greatest depth allowed, so the
passes end after one more than that depth.
-/

namespace LikelyInvariants.Point

/-- Adds variables that are not constant, and gives the range of their positions. -/
def addVariables (vars : List Declaration) : Update Point (Nat × Nat) := do
  let p ← get
  p.checkGrows
  if !vars.isEmpty then p.checkNoEdges
  match vars.find? (·.isConstant) with
  | some v => throw (.staticConstantAppend p.name v.name)
  | none =>
    let catalog := p.catalog.append vars
    set { p with catalog }
    return (p.catalog.size, catalog.size)

/-- A point with the variables of another. -/
def inherit (parent p : Point) : Point :=
  { p with
    catalog := parent.catalog
    derivations := parent.derivations
    derivedThrough := parent.derivedThrough }

/-- Takes over the variables of the parent. -/
def follow (parent : Point) : Update Point Unit := do
  (← get).checkFollows
  modify parent.inherit

/-- One derivation pass, without a change to the point. -/
def derivePass (p : Point) (rules : Rules) (s : DeriveSettings) (min limit : Nat) :
    Except Error (List Derivation) :=
  if limit < min ∨ p.catalog.size < limit then
    .error (.invalidRange p.name min limit p.catalog.size)
  else .ok (p.catalog.derivePass rules s min limit)

/-- The point with the variables of some derivations at the end of its catalog. -/
def addDerived (p : Point) (ds : List Derivation) : Point :=
  { p with
    catalog := p.catalog.append (ds.map (·.declaration p.catalog))
    derivations := p.derivations ++ ds.mapIdx fun i d => (p.catalog.size + i, d) }

/-- Derivation passes from the variable at `lower` on, where the catalog ends at `upper`, as many as
there is fuel for. Gives the position up to which variables were counted then. -/
def deriveFrom (rules : Rules) (s : DeriveSettings) : Nat → Nat → Nat → Update Point Nat
  | 0, _, upper => return upper
  | fuel + 1, lower, upper => do
    if upper ≤ lower then return upper
    let p ← get
    let ds ← p.derivePass rules s lower upper
    if !ds.isEmpty then p.checkNoEdges
    set (p.addDerived ds)
    deriveFrom rules s fuel upper (upper + ds.length)

/-- Derives variables until nothing new comes of it, and gives the number of new ones. -/
def createDerived (rules : Rules) (s : DeriveSettings) : Update Point Nat := do
  let p ← get
  p.checkGrows
  let upper ← deriveFrom rules s (s.maxDepth + 1) p.derivedThrough p.catalog.size
  let q ← get
  set { q with derivedThrough := upper }
  return q.catalog.size - p.catalog.size

end LikelyInvariants.Point
