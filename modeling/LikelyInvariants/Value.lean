import LikelyInvariants.Number.Shortest
import LikelyInvariants.Text.Quoted

/-!
# Observed values

A value is an integer, a double, a string, or a sequence of one of these. Values are compared as
numbers and texts compare: two values of different kinds have no order, sequences are ordered by
their first difference, and a NaN makes a comparison undecided where it stands. `Value.equals` is
that equality; it is not the equality of the representation, since a NaN differs from itself and
the two zeros are equal.
-/

namespace LikelyInvariants

/-- An observed value. -/
inductive Value where
  | int (n : Int64)
  | float (x : Binary64)
  | str (s : String)
  | intSeq (ns : List Int64)
  | floatSeq (xs : List Binary64)
  | strSeq (ss : List String)
deriving DecidableEq

/-- The order of two sequences: that of their first elements that are not equal, and where one
runs out first, the shorter one comes first. -/
def compareSeq? {α : Type} (cmp : α → α → Option Ordering) : List α → List α → Option Ordering
  | [], [] => some .eq
  | [], _ :: _ => some .lt
  | _ :: _, [] => some .gt
  | a :: as, b :: bs =>
    match cmp a b with
    | some .eq => compareSeq? cmp as bs
    | other => other

/-- The order of two integers. -/
def compareInt (a b : Int64) : Ordering := compare a.toInt b.toInt

namespace Value

/-- The integer of an integer value. -/
def asInt? : Value → Option Int64
  | int n => some n
  | _ => none

/-- The integers of an integer sequence. -/
def asIntSeq? : Value → Option (List Int64)
  | intSeq ns => some ns
  | _ => none

/-- The elements of a sequence as values of their own. -/
def elements? : Value → Option (List Value)
  | intSeq ns => some (ns.map int)
  | floatSeq xs => some (xs.map float)
  | strSeq ss => some (ss.map str)
  | _ => none

def isSequence (v : Value) : Bool := v.elements?.isSome

/-- The number of elements of a sequence. -/
def length? (v : Value) : Option Nat := v.elements?.map List.length

/-- The element of a sequence at a position. -/
def element? (v : Value) (i : Nat) : Option Value := v.elements?.bind (·[i]?)

/-- The order of two values, if they have one. -/
def compare? : Value → Value → Option Ordering
  | int a, int b => some (compareInt a b)
  | float a, float b => a.compare? b
  | str a, str b => some (compare a b)
  | intSeq a, intSeq b => compareSeq? (fun x y => some (compareInt x y)) a b
  | floatSeq a, floatSeq b => compareSeq? Binary64.compare? a b
  | strSeq a, strSeq b => compareSeq? (fun x y => some (compare x y)) a b
  | _, _ => none

/-- Equality as numbers and texts. -/
def equals (a b : Value) : Bool := a.compare? b == some .eq

/-- Whether a value comes strictly before another. -/
def precedes (a b : Value) : Bool := a.compare? b == some .lt

/-- Whether some value of a list equals the given one. -/
def isAmong (v : Value) (vs : List Value) : Bool := vs.any (·.equals v)

/-- Items between brackets. -/
def bracketed (items : List String) : String := "[" ++ ", ".intercalate items ++ "]"

/-- The text of a value. -/
def text : Value → String
  | int n => toString n.toInt
  | float x => x.text
  | str s => Quoted.quote s
  | intSeq ns => bracketed (ns.map fun n => toString n.toInt)
  | floatSeq xs => bracketed (xs.map Binary64.text)
  | strSeq ss => bracketed (ss.map Quoted.quote)

end Value

end LikelyInvariants
