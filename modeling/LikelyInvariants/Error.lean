/-!
# Errors

What can be wrong with a request to the inference engine, and the message that says so.
-/

namespace LikelyInvariants

/-- The cause of a failed request. -/
inductive Error where
  /-- A configuration file exists and cannot be read. -/
  | unreadableFile
  | configNotFound (path : String)
  | configSyntax (origin : String)
  | invalidPattern (pattern : String)
  | arityMismatch (point : String) (expected found : Nat)
  | partialInstantiation (point : String) (min limit catalogSize : Nat)
  | invalidRange (point : String) (min limit catalogSize : Nat)
  | duplicateSlice (point : String) (key : List Nat)
  | sliceNotFound (point : String) (key : List Nat)
  | invalidSliceVars (point : String) (key : List Nat)
  | invalidTransform (source target : String) (expected found : Nat)
  | transformOutOfRange (source target : String) (index targetSize : Nat)
  | selfFlow (point : String)
  | unknownPoint
  | duplicatePoint (point : String)
  | catalogFrozen (point : String)
  | flowSourceFrozen (point : String)
  | staticConstantAppend (point name : String)
  | duplicateInvariantKind (name : String)
  | duplicateDerivationRule (name : String)
  | missingDerivation (point : String)
deriving DecidableEq

namespace Error

/-- Variables by their positions, as messages show them. -/
def varsText (key : List Nat) : String :=
  "[" ++ ", ".intercalate (key.map fun i => s!"VarIndex({i})") ++ "]"

def message : Error → String
  | unreadableFile => "I/O error"
  | configNotFound path => s!"No configuration file found at '{path}'"
  | configSyntax origin => s!"Failed to parse configuration file '{origin}'"
  | invalidPattern pattern => s!"Invalid variable omission pattern '{pattern}'"
  | arityMismatch point expected found =>
    s!"Program point '{point}' expects samples of {expected} values, got {found}"
  | partialInstantiation point min limit catalogSize =>
    s!"Views of '{point}' must be instantiated up to the end of the catalog ({catalogSize}), " ++
      s!"requested [{min}, {limit})"
  | invalidRange point min limit catalogSize =>
    s!"Index range [{min}, {limit}) is outside of the catalog of '{point}' " ++
      s!"({catalogSize} variables)"
  | duplicateSlice point key => s!"Program point '{point}' already holds a slice over {varsText key}"
  | sliceNotFound point key => s!"Program point '{point}' holds no slice over {varsText key}"
  | invalidSliceVars point key =>
    s!"Slices range over 1 to 3 distinct, ordered variables; got {varsText key} in '{point}'"
  | invalidTransform source target expected found =>
    s!"Transform from '{source}' to '{target}' must map all {expected} source variables, " ++
      s!"it maps {found}"
  | transformOutOfRange source target index targetSize =>
    s!"Transform from '{source}' to '{target}' targets variable {index}, " ++
      s!"but '{target}' has {targetSize}"
  | selfFlow point => s!"Program point '{point}' cannot flow into itself"
  | unknownPoint => "Program point 'PptId(null)' not found"
  | duplicatePoint point => s!"Program point '{point}' is already registered"
  | catalogFrozen point =>
    s!"Variables cannot be added to '{point}' once its views are instantiated"
  | flowSourceFrozen point =>
    s!"Variables cannot be added to '{point}' while it is the source of flow edges"
  | staticConstantAppend point name =>
    s!"Variable '{name}' is a static constant and cannot be appended to '{point}'"
  | duplicateInvariantKind name => s!"Invariant kind '{name}' is already registered"
  | duplicateDerivationRule name => s!"Derivation rule '{name}' is already registered"
  | missingDerivation point =>
    s!"Program point '{point}' has no derivation for some of its derived variables"

end Error

/-- A step on a state that may fail. A step that fails keeps what it has done to the state. -/
abbrev Update (σ α : Type) : Type := ExceptT Error (StateM σ) α

end LikelyInvariants
