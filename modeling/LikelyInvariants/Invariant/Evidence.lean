/-!
# How much evidence is enough

An invariant that no sample has falsified is reported only after enough samples agreed with it.
-/

namespace LikelyInvariants

/-- The most distinct values an invariant keeps track of; one more falsifies it. -/
def maxTracked : Nat := 3

/-- The number of samples an invariant must have seen. -/
def minSamples : Nat := 3

/-- The number of samples that must lie exactly on a bound. -/
def minAtBound : Nat := 3

end LikelyInvariants
