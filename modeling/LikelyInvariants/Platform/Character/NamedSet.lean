import LikelyInvariants.Platform.Character.CodePoints

/-!
# Tables of named sets

The data of the character standard are tables with a row for each value of a property: the names of
the value, spelled with small letters and digits only, and the set of code points that have it.
-/

namespace LikelyInvariants

/-- A row of a table. -/
structure NamedSet where
  names : List String
  /-- The written form of the set, in lines. -/
  text : List String

namespace NamedSet

def set (s : NamedSet) : CodePoints := CodePoints.ofText s.text

/-- The set that has the name in a table. -/
def find? (table : List NamedSet) (name : String) : Option CodePoints :=
  (table.find? (·.names.contains name)).map set

end NamedSet

end LikelyInvariants
