import LikelyInvariants.Prover.Command

/-!
# Axioms

What every conversation with a prover begins by assuming: facts about the lengths of sequences, the
identity `null` and the order of integers.
-/

namespace LikelyInvariants

/-- Facts about the lengths of sequences. -/
def lengthAxioms : List String :=
  ["(FORALL (a) (>= (arrayLength a) 0))",
   "(FORALL (a b) (IMPLIES (EQ a b) (EQ (arrayLength a) (arrayLength b))))"]

/-- `null` is the object identity zero. -/
def nullAxioms : List String := ["(EQ null 0)"]

/-- How the comparisons of integers depend on each other. -/
def orderAxioms : List String :=
  ["(FORALL (x y) (IFF (< x y) (NOT (>= x y))))",
   "(FORALL (x y) (IFF (<= x y) (NOT (> x y))))",
   "(FORALL (x y) (IFF (EQ x y) (AND (<= x y) (>= x y))))"]

/-- All axioms as one formula. -/
def axiomPreamble : String := conjunction (lengthAxioms ++ nullAxioms ++ orderAxioms)

/-- A formula that every prover in its right mind finds valid. -/
def sanityFormula : String := "(EQ 1 1)"

end LikelyInvariants
