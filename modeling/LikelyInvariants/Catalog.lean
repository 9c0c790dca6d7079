import LikelyInvariants.Sample
import LikelyInvariants.Variable

/-!
# Catalogs

The catalog of a program point lists its variables. It only grows, at the end, so a variable's
position identifies it. The variables that are not constant take the sample slots in catalog order:
the slot of a variable is its position less the number of constants before it.
-/

namespace LikelyInvariants

/-- The variables of a program point, in order. -/
structure Catalog where
  vars : List Variable := []
  /-- How many of them are constants. -/
  constants : Nat := 0
deriving DecidableEq

namespace Catalog

def size (c : Catalog) : Nat := c.vars.length

/-- The number of slots of a sample. -/
def slotCount (c : Catalog) : Nat := c.size - c.constants

/-- The catalog with one more variable at its end. -/
def push (c : Catalog) (d : Declaration) : Catalog :=
  let slot := if d.isConstant then none else some c.slotCount
  { vars := c.vars ++ [{ toDeclaration := d, index := c.size, slot }]
    constants := if d.isConstant then c.constants + 1 else c.constants }

/-- The catalog with more variables at its end. -/
def append (c : Catalog) (ds : List Declaration) : Catalog := ds.foldl push c

/-- The catalog of some variables. -/
def ofList (ds : List Declaration) : Catalog := append {} ds

def var? (c : Catalog) (i : Nat) : Option Variable := c.vars[i]?

/-- The position of the first variable of a name. -/
def indexOf? (c : Catalog) (name : String) : Option Nat :=
  c.vars.findIdx? (·.name == name)

/-- The names of the variables at some positions. -/
def names (c : Catalog) (key : List Nat) : List String :=
  key.filterMap fun i => (c.var? i).map (·.name)

/-- The names of the parameters, each once, in order. -/
def paramNames (c : Catalog) : List String :=
  ((c.vars.filter (·.aux.isParam)).map (·.name)).eraseDups.mergeSort (· ≤ ·)

def arrayCount (c : Catalog) : Nat := c.vars.countP (·.type.isArray)

/-- What a sample says about a variable; a constant reads as its unmodified value. -/
def reading? (c : Catalog) (s : Sample) (i : Nat) : Option Reading := do
  let v ← c.var? i
  match v.constant, v.slot with
  | some value, _ => some ⟨value, false⟩
  | none, some slot => s.reading? slot
  | none, none => none

/-- The sample's values at some positions, if none is missing. -/
def project? (c : Catalog) (key : List Nat) (s : Sample) : Option Tuple :=
  (key.mapM (c.reading? s)).map Tuple.ofReadings

end Catalog

end LikelyInvariants
