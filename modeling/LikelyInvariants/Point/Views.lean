import LikelyInvariants.Derivation.Pass
import LikelyInvariants.Invariant.Factory
import LikelyInvariants.Point

/-!
# Slices of a point

The views of a point are the slices over its variables. They are opened together, over a range of
the catalog that reaches to its end: every tuple of one, two or three variables with a member in
the range gets a slice, unless a controlling point accounts for it or no factory makes a candidate
for it. Nothing is opened when one of the slices is open already. Slices can also be opened, filled
and closed one by one, with their variables named in any order.
-/

namespace LikelyInvariants

/-- Which slices of a point need not be opened because a controlling point accounts for them. -/
abbrev Controlled : Type := Point → List Nat → Bool

namespace Catalog

/-- The ascending pairs of positions below `limit` with a member from `min` on. -/
def pairKeys (min limit : Nat) : List (List Nat) :=
  (positions 0 limit).flatMap fun i => (positions (max (i + 1) min) limit).map fun j => [i, j]

/-- The scalar variables at the positions of a range, each with its position. -/
def scalarsIn (c : Catalog) (first limit : Nat) : List (Nat × Variable) :=
  (positions first limit).filterMap fun i => ((c.var? i).filter (!·.type.isArray)).map (i, ·)

/-- The ascending triples of positions of scalar variables, with a member from `min` on, in which
the first variable is compatible with the two others. -/
def tripleKeys (c : Catalog) (min limit : Nat) : List (List Nat) :=
  (c.scalarsIn 0 limit).flatMap fun (i, u) =>
    (c.scalarsIn (i + 1) limit).flatMap fun (j, v) =>
      ((c.scalarsIn (max (j + 1) min) limit).filter fun (_, w) =>
        u.compatible v && u.compatible w).map fun (k, _) => [i, j, k]

/-- The keys of the slices over a range, in the order in which they are opened. -/
def viewKeys (c : Catalog) (min limit : Nat) (ternary : Bool) : List (List Nat) :=
  (positions min limit).map (fun i => [i]) ++ pairKeys min limit ++
    if ternary then c.tripleKeys min limit else []

/-- The variables at the positions of a key. -/
def vars? (c : Catalog) (key : List Nat) : List Variable := key.filterMap c.var?

end Catalog

namespace Point

/-- The slice over a key. -/
def slice? (p : Point) (key : List Nat) : Option Slice := p.slices.find? (·.key = key)

/-- The slice over some variables in any order. -/
def sliceOfAny? (p : Point) (vars : List Nat) : Option Slice := p.slice? vars.mergeSort

/-- The invariant of a number with the key of its slice. -/
def invariant? (p : Point) (id : Nat) : Option (List Nat × Invariant) :=
  p.slices.findSome? fun s => (s.entries.find? (·.id = id)).map fun e => (s.key, e.inv)

/-- The key of a slice over some variables in any order: one to three different variables of the
catalog. -/
def key (p : Point) (vars : List Nat) : Except Error (List Nat) :=
  let sorted := vars.mergeSort
  if 1 ≤ sorted.length ∧ sorted.length ≤ 3 ∧ sorted.Nodup ∧ sorted.all (· < p.catalog.size) then
    .ok sorted
  else .error (.invalidSliceVars p.name vars)

/-- The slices to open with their candidates, if none of them is open. -/
def pendingViews (p : Point) (fs : Factories) (controlled : Controlled) (keys : List (List Nat)) :
    Except Error (List (List Nat × List Invariant)) :=
  let wanted := keys.filterMap fun key =>
    let candidates := fs.candidates (p.catalog.vars? key)
    if controlled p key || candidates.isEmpty then none else some (key, candidates)
  match wanted.find? fun (key, _) => (p.slice? key).isSome with
  | some (key, _) => .error (.duplicateSlice p.name key)
  | none => .ok wanted

/-- Opens one slice with some invariants, which get the next numbers. -/
def openView (p : Point) (key : List Nat) (invs : List Invariant) : Point :=
  let entries := invs.mapIdx fun i inv => { id := p.nextId + i, inv : SliceEntry }
  { p with
    slices := insertSlice { key, entries } p.slices
    nextId := p.nextId + invs.length }

/-- Opens the slices over a range and gives their number. -/
def openViews (min limit : Nat) (fs : Factories) (controlled : Controlled) (ternary : Bool) :
    Update Point Nat := do
  let p ← get
  if limit ≠ p.catalog.size ∨ limit < min then
    throw (.partialInstantiation p.name min limit p.catalog.size)
  else if min = limit then
    set { p with viewsOpen := true }
    return 0
  else
    let pending ← p.pendingViews fs controlled (p.catalog.viewKeys min limit ternary)
    let opened := pending.foldl (fun p (key, invs) => p.openView key invs) p
    set { opened with viewsOpen := true }
    return pending.length

/-- The slice over some variables in any order, opened without invariants if it is not open. -/
def openSlice (vars : List Nat) : Update Point Slice := do
  let p ← get
  let key ← p.key vars
  match p.slice? key with
  | some s => return s
  | none =>
    let s : Slice := { key }
    set { p with slices := insertSlice s p.slices }
    return s

/-- Adds an invariant to the slice over some variables and gives its number. The number is used up
even if there can be no such slice. -/
def addInvariant (vars : List Nat) (inv : Invariant) : Update Point Nat := do
  let p ← get
  let id := p.nextId
  set { p with nextId := id + 1 }
  let s ← openSlice vars
  modify fun p =>
    { p with slices := p.slices.map fun t =>
        if t.key = s.key then { t with entries := t.entries ++ [{ id, inv }] } else t }
  return id

/-- Closes the slice over some variables in any order and gives it. -/
def removeSlice (vars : List Nat) : Update Point Slice := do
  let p ← get
  let key ← p.key vars
  match p.slice? key with
  | some s =>
    set { p with slices := p.slices.filter (·.key ≠ key) }
    return s
  | none => throw (.sliceNotFound p.name vars)

end Point

end LikelyInvariants
