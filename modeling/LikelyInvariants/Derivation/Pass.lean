import LikelyInvariants.Derivation

/-!
# Derivation passes

A pass applies the rules to the variables of a range of the catalog: the rules for one variable to
each of them, the rules for two variables to every pair, in catalog order, with a member in the
range. Variables that are too deep already are not derived from, and derived variables whose names
are not wanted are left out.
-/

namespace LikelyInvariants

/-- What limits derivation. -/
structure DeriveSettings where
  maxDepth : Nat := 2
  /-- Whether a derived variable is left out, by its name. -/
  omit? : Option (String → Bool) := none

/-- Whether a variable may be derived from. -/
def DeriveSettings.isWorth (s : DeriveSettings) (v : Variable) : Bool := v.depth < s.maxDepth

/-- Whether a derived variable is kept. -/
def DeriveSettings.keeps (s : DeriveSettings) (d : Derivation) : Bool :=
  !s.omit?.any (· d.name)

/-- The positions from one up to another, which is not included. -/
def positions (first limit : Nat) : List Nat := List.range' first (limit - first)

namespace Catalog

/-- The variables at the positions of a range that may be derived from. -/
def worthIn (c : Catalog) (s : DeriveSettings) (first limit : Nat) : List Variable :=
  ((positions first limit).filterMap c.var?).filter s.isWorth

/-- The pairs of variables with a member in the range from `min` to `limit`. -/
def pairsIn (c : Catalog) (s : DeriveSettings) (min limit : Nat) : List (Variable × Variable) :=
  (c.worthIn s 0 c.size).flatMap fun v =>
    let seconds :=
      if min ≤ v.index ∧ v.index < limit then c.worthIn s (v.index + 1) c.size
      else c.worthIn s (max (v.index + 1) min) limit
    seconds.map (v, ·)

/-- One derivation pass over the range from `min` to `limit`. -/
def derivePass (c : Catalog) (rules : Rules) (s : DeriveSettings) (min limit : Nat) :
    List Derivation :=
  let ofOne := (c.worthIn s min limit).flatMap fun v => rules.unary.flatMap (·.derive v)
  let ofTwo := (c.pairsIn s min limit).flatMap fun (v, w) => rules.binary.flatMap (·.derive v w)
  (ofOne ++ ofTwo).filter s.keeps

end Catalog

end LikelyInvariants
