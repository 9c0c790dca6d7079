import LikelyInvariants.Value

/-!
# Variables

A variable of a program point has a name, a type, a few facts supplied with it, and either a
constant value, the same at every sample, or a slot in each sample. A derived variable also records
the rule and the variables it was derived from; its depth is one more than the depth of the
deepest of them.
-/

namespace LikelyInvariants

/-- The type a variable is represented by. -/
inductive VarType where
  | int
  /-- An object's identity; zero stands for `null`. -/
  | hashcode
  | float
  | str
  | intSeq
  | floatSeq
  | strSeq
deriving DecidableEq

namespace VarType

def name : VarType → String
  | int => "Int"
  | hashcode => "Hashcode"
  | float => "Float"
  | str => "Str"
  | intSeq => "IntSeq"
  | floatSeq => "FloatSeq"
  | strSeq => "StrSeq"

/-- The type of the elements of a sequence. -/
def element? : VarType → Option VarType
  | intSeq => some int
  | floatSeq => some float
  | strSeq => some str
  | _ => none

def isArray (t : VarType) : Bool := t.element?.isSome

/-- Integers and object identities. -/
def isIntegral : VarType → Bool
  | int | hashcode => true
  | _ => false

def isHashcode (t : VarType) : Bool := t = hashcode

/-- Whether a value may be observed for a variable of the type. -/
def accepts : VarType → Value → Bool
  | int, .int _ => true
  | hashcode, .int _ => true
  | float, .float _ => true
  | str, .str _ => true
  | intSeq, .intSeq _ => true
  | floatSeq, .floatSeq _ => true
  | strSeq, .strSeq _ => true
  | _, _ => false

/-- Whether one invariant may relate variables of the two types. -/
def comparable (t u : VarType) : Bool :=
  t = u || (t = int && u = float) || (t = float && u = int)

end VarType

/-- Facts about a variable that come with it. -/
structure Aux where
  /-- The variable is a parameter of the procedure. -/
  isParam : Bool := false
  /-- The order of the sequence's elements means something. -/
  hasOrder : Bool := false
  hasDuplicates : Bool := false
  hasNull : Bool := false
deriving DecidableEq

/-- The facts that hold by either description. -/
def Aux.union (a b : Aux) : Aux where
  isParam := a.isParam || b.isParam
  hasOrder := a.hasOrder || b.hasOrder
  hasDuplicates := a.hasDuplicates || b.hasDuplicates
  hasNull := a.hasNull || b.hasNull

/-- The rules that derive variables from one variable. -/
inductive UnaryRule where
  | size
  | extremity
  | minMaxSum
deriving DecidableEq

/-- The rules that derive variables from two variables. -/
inductive BinaryRule where
  | subscript
  | setOps
  | concat
  | join
deriving DecidableEq

/-- A rule that derives variables. -/
inductive Rule where
  | unary (r : UnaryRule)
  | binary (r : BinaryRule)
deriving DecidableEq

def UnaryRule.name : UnaryRule → String
  | size => "size"
  | extremity => "extremity"
  | minMaxSum => "min_max_sum"

def BinaryRule.name : BinaryRule → String
  | subscript => "subscript"
  | setOps => "set_ops"
  | concat => "concat"
  | join => "join"

def Rule.name : Rule → String
  | unary r => r.name
  | binary r => r.name

/-- Where a derived variable comes from. -/
structure Origin where
  rule : Rule
  /-- Positions of the variables it was derived from. -/
  bases : List Nat
  depth : Nat
deriving DecidableEq

/-- A variable as it is described before it has a place in a catalog. -/
structure Declaration where
  name : String
  type : VarType
  aux : Aux := {}
  /-- The value of a constant. -/
  constant : Option Value := none
  origin : Option Origin := none
deriving DecidableEq

/-- A variable with its place in a catalog. -/
structure Variable extends Declaration where
  /-- The position in the catalog. -/
  index : Nat
  /-- The sample slot that carries the value; constants have none. -/
  slot : Option Nat
deriving DecidableEq

namespace Declaration

def isConstant (d : Declaration) : Bool := d.constant.isSome

/-- How many derivations deep the variable is; observed variables are at depth zero. -/
def depth (d : Declaration) : Nat := d.origin.elim 0 Origin.depth

end Declaration

/-- Whether one invariant may relate the two variables. -/
def Variable.compatible (v w : Variable) : Bool := v.type.comparable w.type

end LikelyInvariants
