import LikelyInvariants.Config
import LikelyInvariants.Error
import LikelyInvariants.Platform.Pattern.Reader
import LikelyInvariants.Platform.Toml.Reader

/-!
# Reading a configuration

Every key of a configuration may be left out and then has its default; keys that mean nothing are
ignored, but a key with a value of the wrong type makes the configuration invalid.
-/

namespace LikelyInvariants

namespace Toml

def asBool? : Toml → Option Bool
  | boolean b => some b
  | _ => none

def asString? : Toml → Option String
  | string s => some s
  | _ => none

/-- An integer from zero up to a limit that is excluded. -/
def asNat? (limit : Nat) : Toml → Option Nat
  | integer (.ofNat n) => if n < limit then some n else none
  | _ => none

def asStrings? : Toml → Option (List String)
  | array items => items.mapM asString?
  | _ => none

/-- The value of a key: its default if the key is absent, nothing if the value has the wrong
type. -/
def field? {α : Type} (es : Entries) (key : String) (read? : Toml → Option α) (dflt : α) :
    Option α :=
  match es.lookup key with
  | none => some dflt
  | some v => read? v

end Toml

/-- Whether the values of keys that mean nothing can be read. -/
def Toml.othersReadable (es : Entries) (keys : List String) : Bool :=
  areEntriesRepresentable (es.filter fun (key, _) => !keys.contains key)

namespace ProverConfig

/-- The keys, in the order in which an array gives their values. -/
def keys : List String := ["enabled", "command", "args", "timeout_ms", "max_start_attempts"]

def ofEntries? (es : Toml.Entries) : Option ProverConfig := do
  if !Toml.othersReadable es keys then none else
  let dflt : ProverConfig := {}
  let enabled ← Toml.field? es "enabled" Toml.asBool? dflt.enabled
  let command ← Toml.field? es "command" Toml.asString? dflt.command
  let args ← Toml.field? es "args" Toml.asStrings? dflt.args
  let timeout ← Toml.field? es "timeout_ms" (Toml.asNat? UInt64.size) dflt.timeout
  let maxStarts ← Toml.field? es "max_start_attempts" (Toml.asNat? UInt32.size) dflt.maxStarts
  some { enabled, command, args, timeout, maxStarts }

/-- The settings a table gives by key, or an array by position. A date is a table whose keys mean
nothing. -/
def ofToml? : Toml → Option ProverConfig
  | .table _ es => ofEntries? es
  | .array items => ofEntries? (keys.zip items)
  | .datetime => ofEntries? []
  | _ => none

end ProverConfig

namespace Config

def keys : List String :=
  ["pairwise_implications", "disable_ternary_invariants", "add_nonimplications",
    "var_omit_pattern", "max_derivation_depth", "disabled_invariants", "disabled_derivations",
    "prover"]

def ofEntries? (es : Toml.Entries) : Option Config := do
  if !Toml.othersReadable es keys then none else
  let dflt : Config := {}
  let pairwiseImplications ←
    Toml.field? es "pairwise_implications" Toml.asBool? dflt.pairwiseImplications
  let disableTernaryInvariants ←
    Toml.field? es "disable_ternary_invariants" Toml.asBool? dflt.disableTernaryInvariants
  let addNonimplications ←
    Toml.field? es "add_nonimplications" Toml.asBool? dflt.addNonimplications
  let varOmitPattern ←
    Toml.field? es "var_omit_pattern" (fun v => v.asString?.map some) dflt.varOmitPattern
  let maxDerivationDepth ←
    Toml.field? es "max_derivation_depth" (Toml.asNat? UInt64.size) dflt.maxDerivationDepth
  let disabledInvariants ←
    Toml.field? es "disabled_invariants" Toml.asStrings? dflt.disabledInvariants
  let disabledDerivations ←
    Toml.field? es "disabled_derivations" Toml.asStrings? dflt.disabledDerivations
  let prover ← Toml.field? es "prover" ProverConfig.ofToml? dflt.prover
  some
    { pairwiseImplications, disableTernaryInvariants, addNonimplications, varOmitPattern
      maxDerivationDepth, disabledInvariants, disabledDerivations, prover }

/-- The configuration a text describes; the origin of the text is for the error. -/
def ofText (text origin : String) : Except Error Config :=
  match (Toml.ofString? text).bind ofEntries? with
  | some config => .ok config
  | none => .error (.configSyntax origin)

/-- What is found at a path. -/
inductive FileContent where
  | absent
  | unreadable
  | text (s : String)

/-- The configuration in a file. -/
def ofFile (path : String) : FileContent → Except Error Config
  | .absent => .error (.configNotFound path)
  | .unreadable => .error .unreadableFile
  | .text s => ofText s path

/-- The pattern that names of derived variables must not match, if there is one. -/
def omitPattern (config : Config) : Except Error (Option Pattern) :=
  match config.varOmitPattern with
  | none => .ok none
  | some text =>
    match Pattern.ofString? text with
    | some p => .ok (some p)
    | none => .error (.invalidPattern text)

end Config

end LikelyInvariants
