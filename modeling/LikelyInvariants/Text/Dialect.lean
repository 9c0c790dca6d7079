/-!
# The two output languages

Invariants are written in the infix language of the report, for people, and in the parenthesised
language of the prover. The two differ in how a variable's name is spelled: the report shows it as
it is, the prover needs a symbol.
-/

namespace LikelyInvariants

/-- The language a formula is written in. -/
inductive Dialect where
  /-- For people, as in `x == y`. -/
  | report
  /-- For the prover, as in `(EQ x y)`. -/
  | prover
deriving DecidableEq

/-- Characters of names that are symbols as they stand. -/
def isSymbolChar (c : Char) : Bool := c.isAlphanum || c == '_'

/-- The prover's symbol for a name: the name itself when it is not empty and has plain characters
only, else the name between bars with a backslash before each bar in it. -/
def proverSymbol (name : String) : String :=
  if !name.isEmpty && name.toList.all isSymbolChar then name
  else
    String.ofList ('|' :: name.toList.flatMap (fun c => if c = '|' then ['\\', '|'] else [c]) ++ ['|'])

/-- The spelling of a variable's name. -/
def Dialect.name : Dialect → String → String
  | .report, name => name
  | .prover, name => proverSymbol name

end LikelyInvariants
