import LikelyInvariants.Number.Checked
import LikelyInvariants.Value

/-!
# Recipes

A recipe computes the value of a derived variable from the values of the variables it is derived
from. Where it has no result, for an empty sequence, a position out of range or a sum that does not
fit in 64 bits, the derived value is missing.
-/

namespace LikelyInvariants

/-- How a derived value is computed. -/
inductive Recipe where
  /-- The length of a sequence. -/
  | size
  /-- The first element. -/
  | first
  /-- The last element. -/
  | last
  | min
  | max
  | sum
  /-- The element of the first value at the position the second value gives. -/
  | elementAt
  /-- The element just before that position. -/
  | elementBefore
  /-- The elements of both sequences. -/
  | intersect
  /-- The elements of either sequence. -/
  | union
  /-- One sequence after the other. -/
  | concat
  /-- The elements of two sequences in pairs. -/
  | join
deriving DecidableEq

/-- A list without the elements that repeat the one before. -/
def dropRepeats {α : Type} [DecidableEq α] : List α → List α
  | [] => []
  | [a] => [a]
  | a :: b :: rest => if a = b then dropRepeats (b :: rest) else a :: dropRepeats (b :: rest)

/-- The elements of a list in ascending order, each once. -/
def sortedSet {α : Type} [DecidableEq α] (le : α → α → Bool) (as : List α) : List α :=
  dropRepeats (as.mergeSort le)

/-- The order of integers in sets. -/
def intLe (a b : Int64) : Bool := a.toInt ≤ b.toInt

/-- The order of strings in sets. -/
def strLe (a b : String) : Bool := a ≤ b

namespace Recipe

/-- The smallest integer of a list. -/
def least? : List Int64 → Option Int64
  | [] => none
  | a :: as => some (as.foldl (fun m x => if intLe m x then m else x) a)

/-- The greatest integer of a list. -/
def greatest? : List Int64 → Option Int64
  | [] => none
  | a :: as => some (as.foldl (fun m x => if intLe x m then m else x) a)

/-- The element of a sequence at a position that may lie out of its range. -/
def subscript? (seq : Value) (i : Int) : Option Value :=
  if i < 0 then none else seq.element? i.toNat

/-- The sequences' elements in pairs, written with a colon; their lengths must agree. -/
def join? (a b : Value) : Option Value := do
  let as ← a.elements?
  let bs ← b.elements?
  if as.length = bs.length then
    some (.strSeq (List.zipWith (fun x y => s!"{x.text}:{y.text}") as bs))
  else none

/-- The derived value, if the recipe has one for these values. -/
def compute? : Recipe → List Value → Option Value
  | size, [a] => a.length?.map fun n => .int (Int64.ofNat n)
  | first, [a] => a.element? 0
  | last, [a] => a.elements?.bind List.getLast?
  | min, [.intSeq ns] => (least? ns).map .int
  | max, [.intSeq ns] => (greatest? ns).map .int
  | sum, [.intSeq ns] => (ns.foldlM Int64.add? 0).map .int
  | elementAt, [a, .int i] => subscript? a i.toInt
  | elementBefore, [a, .int i] => (i.sub? 1).bind fun j => subscript? a j.toInt
  | intersect, [.intSeq as, .intSeq bs] => some (.intSeq (sortedSet intLe (as.filter bs.contains)))
  | intersect, [.strSeq as, .strSeq bs] => some (.strSeq (sortedSet strLe (as.filter bs.contains)))
  | union, [.intSeq as, .intSeq bs] => some (.intSeq (sortedSet intLe (as ++ bs)))
  | union, [.strSeq as, .strSeq bs] => some (.strSeq (sortedSet strLe (as ++ bs)))
  | concat, [.intSeq as, .intSeq bs] => some (.intSeq (as ++ bs))
  | concat, [.floatSeq as, .floatSeq bs] => some (.floatSeq (as ++ bs))
  | concat, [.strSeq as, .strSeq bs] => some (.strSeq (as ++ bs))
  | join, [a, b] => join? a b
  | _, _ => none

end Recipe

end LikelyInvariants
