import LikelyInvariants.Config.Reading
import LikelyInvariants.Context

/-!
# What a configuration leaves enabled

The standard factories and rules without the ones a configuration disables, and a context with what
is left.
-/

namespace LikelyInvariants

/-- The factories a configuration leaves enabled. -/
def Factories.ofConfig (config : Config) : Factories :=
  Factories.standard.filter fun f =>
    !config.disabledInvariants.contains f.name &&
      !(config.disableTernaryInvariants && f.arity = 3)

/-- The rules a configuration leaves enabled. -/
def Rules.ofConfig (config : Config) : Rules :=
  Rules.standard.filter fun name => !config.disabledDerivations.contains name

/-- A pattern leaves out the names in which it occurs. -/
instance : Coe (Option Pattern) (Option (String → Bool)) := ⟨Option.map Pattern.occursIn⟩

/-- A context without points, with what a configuration leaves enabled and without a prover. -/
def Context.ofConfig (config : Config) : Except Error Context := do
  let omit? ← config.omitPattern
  return { config, omit?, factories := .ofConfig config, rules := .ofConfig config }

end LikelyInvariants
