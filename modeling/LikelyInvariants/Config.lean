/-!
# Configuration

The switches of the engine and of its prover, with their defaults.
-/

namespace LikelyInvariants

/-- The settings of the prover. -/
structure ProverConfig where
  /-- Without a prover nothing is marked redundant. -/
  enabled : Bool := true
  command : String := "Simplify"
  args : List String := ["-nosc"]
  /-- How long a query may take, in milliseconds. -/
  timeout : Nat := 10000
  /-- How often the prover may be started. -/
  maxStarts : Nat := 5
deriving DecidableEq

/-- The settings of the engine. -/
structure Config where
  /-- Pair all children of a point, not just the first two. -/
  pairwiseImplications : Bool := false
  disableTernaryInvariants : Bool := false
  /-- Record also what holds on both sides of a split. -/
  addNonimplications : Bool := false
  /-- Derived variables of matching names are not created. -/
  varOmitPattern : Option String := none
  /-- Variables of this depth are not derived from. -/
  maxDerivationDepth : Nat := 2
  disabledInvariants : List String := []
  disabledDerivations : List String := []
  prover : ProverConfig := {}
deriving DecidableEq

end LikelyInvariants
