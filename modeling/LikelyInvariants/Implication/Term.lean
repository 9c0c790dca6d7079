import LikelyInvariants.Invariant

/-!
# Terms and implications

A term is a property of a point as it was when an implication was built from it: either an
invariant of one of its slices or the condition that makes it a child. It is identified by where it
comes from. An implication relates two terms of one child.
-/

namespace LikelyInvariants

/-- Where a term comes from. Points are named by their number, invariants by their number within
their point. -/
inductive TermSource where
  | invariant (point id : Nat)
  /-- The condition of a child. -/
  | condition (point : Nat)
deriving DecidableEq

/-- Invariants come before conditions; otherwise sources are ordered by point, then by number. -/
def TermSource.compare : TermSource → TermSource → Ordering
  | invariant p i, invariant q j => (Ord.compare p q).then (Ord.compare i j)
  | invariant _ _, condition _ => .lt
  | condition _, invariant _ _ => .gt
  | condition p, condition q => Ord.compare p q

/-- What a term states: the variables by name, and the formula; a condition has neither. -/
structure Formula where
  names : List String
  key : Option FormulaKey
deriving DecidableEq

/-- The order of keys that may be absent: an absent one comes first. -/
def compareKey? : Option FormulaKey → Option FormulaKey → Ordering
  | none, none => .eq
  | none, some _ => .lt
  | some _, none => .gt
  | some k, some l => k.compare l

/-- The order of two lists of names. -/
def compareNames : List String → List String → Ordering
  | [], [] => .eq
  | [], _ :: _ => .lt
  | _ :: _, [] => .gt
  | a :: as, b :: bs => (Ord.compare a b).then (compareNames as bs)

def Formula.compare (f g : Formula) : Ordering :=
  (compareNames f.names g.names).then (compareKey? f.key g.key)

/-- A property of a point, as it was when the term was made. -/
structure Term where
  source : TermSource
  formula : Formula
  /-- The property in the language of the report. -/
  text : String
  /-- The property in the language of the prover, if it can be expressed there. -/
  prover : Option String
  justified : Bool
deriving DecidableEq

def Term.render (t : Term) : Dialect → Option String
  | .report => some t.text
  | .prover => t.prover

/-- The predicate implies the consequent, or the two are equivalent. -/
structure Implication where
  predicate : Term
  consequent : Term
  iff : Bool
deriving DecidableEq

namespace Implication

def render (i : Implication) (d : Dialect) : Option String := do
  let p ← i.predicate.render d
  let c ← i.consequent.render d
  match d, i.iff with
  | .report, false => some s!"({p}) ==> ({c})"
  | .report, true => some s!"({p}) <==> ({c})"
  | .prover, false => some s!"(IMPLIES {p} {c})"
  | .prover, true => some s!"(IFF {p} {c})"

/-- Whether two implications relate the same terms in the same way. -/
def isSameAs (i j : Implication) : Bool :=
  i.predicate.source = j.predicate.source && i.consequent.source = j.consequent.source &&
    i.iff = j.iff

end Implication

end LikelyInvariants
