import LikelyInvariants.Invariant

/-!
# Slices

A slice is a view of a point restricted to one, two or three variables. It owns the invariants over
those variables that no sample has falsified. A sample in which one of the variables is missing is
counted, but no invariant is fed with it.
-/

namespace LikelyInvariants

/-- An invariant with its number in its point. -/
structure SliceEntry where
  id : Nat
  inv : Invariant
deriving DecidableEq

/-- The live invariants over some variables. -/
structure Slice where
  /-- The positions of the variables, ascending. -/
  key : List Nat
  entries : List SliceEntry := []
  /-- The samples in which all the variables are present. -/
  samples : Nat := 0
  /-- The samples in which some of them is missing. -/
  missing : Nat := 0
deriving DecidableEq

/-- The order of two keys: by their first difference, a beginning of the other coming first. -/
def compareKeys : List Nat → List Nat → Ordering
  | [], [] => .eq
  | [], _ :: _ => .lt
  | _ :: _, [] => .gt
  | a :: as, b :: bs => (compare a b).then (compareKeys as bs)

/-- The entry after a tuple was fed to its invariant, if the invariant survives. -/
def SliceEntry.add? (t : Tuple) (count : Nat) (e : SliceEntry) : Option SliceEntry :=
  (e.inv.add? t count).map fun inv => { e with inv }

namespace Slice

def arity (s : Slice) : Nat := s.key.length

def isEmpty (s : Slice) : Bool := s.entries.isEmpty

/-- Feeds a sample to every invariant and drops the ones it falsifies. -/
def add (s : Slice) (c : Catalog) (sample : Sample) (count : Nat) : Slice :=
  match c.project? s.key sample with
  | some t =>
    { s with samples := s.samples + count, entries := s.entries.filterMap (·.add? t count) }
  | none => { s with missing := s.missing + count }

end Slice

/-- Puts a slice in its place among slices that are ordered by their keys. -/
def insertSlice (s : Slice) : List Slice → List Slice
  | [] => [s]
  | t :: ts => if compareKeys s.key t.key = .lt then s :: t :: ts else t :: insertSlice s ts

end LikelyInvariants
