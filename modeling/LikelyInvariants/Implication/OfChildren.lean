import LikelyInvariants.Implication.Matching

/-!
# Implications from two children

Two children split the samples of their parent by a condition. A property that only one of them has
follows, at the parent, from anything that tells the children apart: from their conditions, and
from two properties, one of each child, that exclude each other. A property that both have says
nothing about the split; it holds at the parent whatever the condition.
-/

namespace LikelyInvariants

/-- What two children agree and differ on, or the part of it in some of their slices. -/
structure Contrast where
  /-- Pairs of properties of either child that exclude each other. -/
  exclusive : List (Term × Term) := []
  /-- Properties of one child that the other one has not. -/
  oneSided : List (Option Term × Option Term) := []
  /-- Justified properties of both children, as terms of the first. -/
  shared : List Term := []

namespace Contrast

/-- The parts one after the other. -/
def ofParts (parts : List Contrast) : Contrast where
  exclusive := parts.flatMap exclusive
  oneSided := parts.flatMap oneSided
  shared := parts.flatMap shared

/-- The pairs of invariants of two slices that exclude each other. -/
def exclusivePairs (left right : List SliceTerm) : List (Term × Term) :=
  left.flatMap fun a => (right.filter fun b => a.inv.excludes b.inv).map fun b => (a.term, b.term)

/-- The property of both, if both have it and are justified. -/
def shared? : Option Term × Option Term → Option Term
  | (some a, some b) => if a.justified && b.justified then some a else none
  | _ => none

/-- Whether only one of the two has the property. -/
def isOneSided : Option Term × Option Term → Bool
  | (some _, some _) => false
  | _ => true

/-- What two children agree and differ on in matched slices. A slice that only one of them has is
all difference. -/
def ofSlices (left right : Nat) : Option NamedSlice × Option NamedSlice → Contrast
  | (l, r) =>
    let ls := l.elim [] (·.terms left)
    let rs := r.elim [] (·.terms right)
    let matched := matchBy Term.formula Formula.compare (ls.map (·.term)) (rs.map (·.term))
    { exclusive := exclusivePairs ls rs
      oneSided := matched.filter isOneSided
      shared := matched.filterMap shared? }

/-- What two children, given with their numbers, agree and differ on. The conditions exclude each
other as well; they are put in front, but only if something else does too. -/
def ofChildren (left right : Nat × Point) : Contrast :=
  let all := ofParts ((matchSlices left.2 right.2).map (ofSlices left.1 right.1))
  if all.exclusive.isEmpty then all
  else
    match left.2.conditionTerm? left.1, right.2.conditionTerm? right.1 with
    | some c, some d => { all with exclusive := (c, d) :: all.exclusive }
    | _, _ => all

/-- What an exclusive term of one child, the `i`-th, implies: a one-sided term of the same child, if
both are justified and the consequent is not one of the exclusive terms up to the `i`-th. The two
are equivalent if the consequent is exclusive too. -/
def implies? (exclusive : List Term) (i : Nat) (predicate consequent : Term) :
    Option Implication :=
  let place := exclusive.findIdx? (·.source = consequent.source)
  if place.all (i < ·) && predicate.justified && consequent.justified &&
      predicate.source ≠ consequent.source then
    some { predicate, consequent, iff := place.isSome }
  else none

/-- The implications of the parent. -/
def implications (c : Contrast) : List Implication :=
  let lefts := c.exclusive.map (·.1)
  let rights := c.exclusive.map (·.2)
  let all := (c.exclusive.mapIdx fun i (e, f) =>
    c.oneSided.flatMap fun (l, r) =>
      (l.bind (implies? lefts i e)).toList ++ (r.bind (implies? rights i f)).toList).flatten
  all.eraseDupsBy Implication.isSameAs

end Contrast

end LikelyInvariants
