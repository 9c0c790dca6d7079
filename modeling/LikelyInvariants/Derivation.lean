import LikelyInvariants.Catalog
import LikelyInvariants.Derivation.Recipe

/-!
# Derived variables

A rule proposes derived variables for one variable or for two variables in catalog order. Which
ones it proposes depends only on the variables' types and facts, never on values.
-/

namespace LikelyInvariants

/-- A derived variable that a rule proposes. -/
structure Derivation where
  rule : Rule
  name : String
  type : VarType
  aux : Aux := {}
  /-- Positions of the variables whose values the recipe takes, in its order. -/
  bases : List Nat
  recipe : Recipe
deriving DecidableEq

/-- The derived value, if the recipe has one for the values of the bases. -/
def Derivation.compute? (d : Derivation) (inputs : List Value) : Option Value :=
  d.recipe.compute? inputs

/-- The declaration of the derived variable in a catalog that holds its bases. -/
def Derivation.declaration (d : Derivation) (c : Catalog) : Declaration where
  name := d.name
  type := d.type
  aux := d.aux
  origin := some
    { rule := d.rule
      bases := d.bases
      depth := 1 + (d.bases.filterMap c.var?).foldl (fun n v => max n v.depth) 0 }

/-- What a rule proposes for one variable. -/
def UnaryRule.derive (r : UnaryRule) (v : Variable) : List Derivation :=
  let make (name : String) (type : VarType) (recipe : Recipe) : Derivation :=
    { rule := .unary r, name, type, bases := [v.index], recipe }
  match r with
  | size => if v.type.isArray then [make s!"size({v.name})" .int .size] else []
  | extremity =>
    match v.type.element? with
    | some t => [make s!"{v.name}[0]" t .first, make s!"{v.name}[-1]" t .last]
    | none => []
  | minMaxSum =>
    if v.type = .intSeq then
      [make s!"min({v.name})" .int .min, make s!"max({v.name})" .int .max,
       make s!"sum({v.name})" .int .sum]
    else []

/-- Whether `i` is the size of the sequence `a`, a position that is always out of range. -/
def Variable.isSizeOf (i a : Variable) : Bool :=
  match i.origin with
  | some o => o.rule = .unary .size && o.bases.head? = some a.index
  | none => false

/-- The elements of a sequence at the position an integer variable gives and just before it. -/
def subscripts (a i : Variable) : List Derivation :=
  match a.type.element? with
  | some t =>
    if i.type = .int then
      let make (name : String) (recipe : Recipe) : Derivation :=
        { rule := .binary .subscript, name, type := t, bases := [a.index, i.index], recipe }
      let before := make s!"{a.name}[{i.name}-1]" .elementBefore
      if i.isSizeOf a then [before] else [make s!"{a.name}[{i.name}]" .elementAt, before]
    else []
  | none => []

/-- What a rule proposes for two variables, the first before the second in the catalog. -/
def BinaryRule.derive (r : BinaryRule) (v w : Variable) : List Derivation :=
  let make (name : String) (type : VarType) (recipe : Recipe) (aux : Aux) : Derivation :=
    { rule := .binary r, name := s!"{name}({v.name}, {w.name})", type, aux
      bases := [v.index, w.index], recipe }
  match r with
  | subscript => if v.type.isArray then subscripts v w else subscripts w v
  | setOps =>
    if v.type = w.type ∧ (v.type = .intSeq ∨ v.type = .strSeq) then
      [make "intersect" v.type .intersect {}, make "union" v.type .union {}]
    else []
  | concat =>
    if v.type = w.type ∧ v.type.isArray then
      [make "concat" v.type .concat { hasOrder := v.aux.hasOrder && w.aux.hasOrder }]
    else []
  | join =>
    if v.type.isArray && v.aux.hasOrder && w.type.isArray && w.aux.hasOrder then
      [make "join" .strSeq .join { hasOrder := true }]
    else []

/-- The rules in use, in the order in which they are applied. -/
structure Rules where
  unary : List UnaryRule := []
  binary : List BinaryRule := []
deriving DecidableEq

namespace Rules

/-- Every rule. -/
def standard : Rules where
  unary := [.size, .extremity, .minMaxSum]
  binary := [.subscript, .setOps, .concat, .join]

/-- The rules whose names satisfy a test. -/
def filter (rs : Rules) (keep : String → Bool) : Rules where
  unary := rs.unary.filter (keep ·.name)
  binary := rs.binary.filter (keep ·.name)

/-- The rules with one more, or nothing if one of its name is there already. -/
def register? (rs : Rules) (r : Rule) : Option Rules :=
  if rs.unary.any (·.name == r.name) || rs.binary.any (·.name == r.name) then none
  else
    match r with
    | .unary u => some { rs with unary := rs.unary ++ [u] }
    | .binary b => some { rs with binary := rs.binary ++ [b] }

end Rules

end LikelyInvariants
