import LikelyInvariants.Implication.Term
import LikelyInvariants.Point

/-!
# Matching two points

Two points that split the samples of a third are compared slice by slice. Slices are matched by the
names of their variables, and within matched slices terms are matched by their formulas. Both are
the same operation: the items of two lists are matched by a key, and the keys come in order.
-/

namespace LikelyInvariants

/-- For each key that occurs in either list, in order, the last item of each list with that key. -/
def matchBy {α κ : Type} [DecidableEq κ] (key : α → κ) (cmp : κ → κ → Ordering)
    (left right : List α) : List (Option α × Option α) :=
  let keys := ((left ++ right).map key).eraseDups.mergeSort fun k l => (cmp k l).isLE
  keys.map fun k => (left.reverse.find? (key · = k), right.reverse.find? (key · = k))

/-- A slice with the names of its variables. -/
structure NamedSlice where
  names : List String
  slice : Slice

/-- The open slices of a point. -/
def Point.namedSlices (p : Point) : List NamedSlice :=
  p.slices.map fun slice => { names := p.catalog.names slice.key, slice }

/-- Slices of fewer variables come first; otherwise names are ordered one by one. -/
def compareSliceNames (k l : List String) : Ordering :=
  (compare k.length l.length).then (compareNames k l)

/-- The slices of two points, matched by the names of their variables. -/
def matchSlices (left right : Point) : List (Option NamedSlice × Option NamedSlice) :=
  matchBy NamedSlice.names compareSliceNames left.namedSlices right.namedSlices

/-- An invariant of a slice with its term. -/
structure SliceTerm where
  term : Term
  inv : Invariant

/-- The term of an invariant of a point. One that the report cannot express is shown by its key. -/
def NamedSlice.termOf (point : Nat) (s : NamedSlice) (e : SliceEntry) : Term where
  source := .invariant point e.id
  formula := { names := s.names, key := some e.inv.key }
  text := (e.inv.render .report s.names).getD
    (s!"{e.inv.key.text} over " ++ ", ".intercalate s.names)
  prover := e.inv.render .prover s.names
  justified := e.inv.isJustified

/-- The invariants of a slice of a point with their terms. -/
def NamedSlice.terms (point : Nat) (s : NamedSlice) : List SliceTerm :=
  s.slice.entries.map fun e => { term := s.termOf point e, inv := e.inv }

/-- The term of the condition that makes a point a child, if the report can express it. -/
def Point.conditionTerm? (p : Point) (id : Nat) : Option Term :=
  match p.kind with
  | .topLevel => none
  | .conditional _ splitter polarity => do
    let text ← splitter.render? polarity .report
    some
      { source := .condition id
        formula := { names := [], key := none }
        text
        prover := splitter.render? polarity .prover
        justified := true }

end LikelyInvariants
