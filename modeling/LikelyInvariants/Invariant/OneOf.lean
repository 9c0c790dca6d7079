import LikelyInvariants.Sample
import LikelyInvariants.Variable
import LikelyInvariants.Text.Dialect
import LikelyInvariants.Invariant.Evidence

/-!
# A handful of values

Two invariants keep the distinct values seen so far, of a variable or of a sequence's elements, and
give up at the fourth. The values are kept in order. A new value goes behind the last one that it
does not precede, so where values have no order between them, as with a NaN, the earlier one stays
first.
-/

namespace LikelyInvariants

/-- The list with `v` behind the last value that `v` does not precede. -/
def insertInOrder (v : Value) (vs : List Value) : List Value :=
  let (after, before) := vs.reverse.span v.precedes
  before.reverse ++ v :: after.reverse

/-- The tracked values after `v` was seen, or nothing if they have become too many. -/
def track? (vs : List Value) (v : Value) : Option (List Value) :=
  if v.isAmong vs then some vs
  else if vs.length = maxTracked then none
  else some (insertInOrder v vs)

/-- The text of a constant; among object identities zero is `null`. -/
def constantText (hashcode : Bool) (v : Value) : String :=
  if hashcode && v = .int 0 then "null" else v.text

/-- The texts of some constants, separated by commas. -/
def constantsText (hashcode : Bool) (vs : List Value) : String :=
  ", ".intercalate (vs.map (constantText hashcode))

/-- The variable takes only the tracked values. -/
structure OneOf where
  type : VarType
  values : List Value := []
  samples : Nat := 0
deriving DecidableEq

namespace OneOf

def add? (t : Tuple) (count : Nat) (s : OneOf) : Option OneOf :=
  match t.values with
  | v :: _ => (track? s.values v).map fun values =>
      { s with values, samples := s.samples + count }
  | [] => none

def isJustified (s : OneOf) : Bool :=
  minSamples ≤ s.samples && s.values.length < s.samples

def detail (s : OneOf) : String := constantsText s.type.isHashcode s.values

/-- Whether zero is the only value. -/
def isZero (s : OneOf) : Bool :=
  match s.values with
  | [v] => v.equals (.int 0)
  | _ => false

/-- Whether an empty sequence is the only value. -/
def isEmptySequence (s : OneOf) : Bool :=
  match s.values with
  | [v] => v.length? == some 0
  | _ => false

/-- Whether both have values and share none. -/
def excludes (s other : OneOf) : Bool :=
  !s.values.isEmpty && !other.values.isEmpty && s.values.all (!·.isAmong other.values)

def render (s : OneOf) (d : Dialect) (x : String) : Option String :=
  let constant := constantText s.type.isHashcode
  match d, s.values with
  | _, [] => none
  | .report, [v] => some s!"{x} == {constant v}"
  | .report, vs => some (s!"{x} one of \x7b {constantsText s.type.isHashcode vs} \x7d")
  | .prover, vs =>
    if s.type.isIntegral then
      match vs.map fun v => s!"(EQ {x} {constant v})" with
      | [formula] => some formula
      | formulas => some ("(OR " ++ " ".intercalate formulas ++ ")")
    else none

end OneOf

/-- The elements of the sequence are among the tracked values. -/
structure ElementOneOf where
  values : List Value := []
  samples : Nat := 0
deriving DecidableEq

namespace ElementOneOf

def add? (t : Tuple) (count : Nat) (s : ElementOneOf) : Option ElementOneOf :=
  match t.values with
  | v :: _ => do
    let elements ← v.elements?
    let values ← elements.foldlM track? s.values
    some { values, samples := s.samples + count }
  | [] => none

def isJustified (s : ElementOneOf) : Bool := minSamples ≤ s.samples && !s.values.isEmpty

def detail (s : ElementOneOf) : String := constantsText false s.values

def render (s : ElementOneOf) (d : Dialect) (x : String) : Option String :=
  match d, s.values with
  | .prover, _ => none
  | .report, [] => none
  | .report, [v] => some s!"{x}[] elements == {v.text}"
  | .report, vs => some s!"{x}[] elements one of \x7b {constantsText false vs} \x7d"

end ElementOneOf

end LikelyInvariants
