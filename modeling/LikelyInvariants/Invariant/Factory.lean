import LikelyInvariants.Invariant

/-!
# Factories

A factory makes candidates for so many variables, under a name of its own. Which factories are in
use decides what a point looks for. Every kind has a factory, but anything can be one that says for
how many variables it is and makes a list of invariants for them.
-/

namespace LikelyInvariants

/-- What makes candidates, for a number of variables. -/
structure Maker where
  arity : Nat
  candidates : List Variable → List Invariant

namespace Maker

def ofKind (k : Kind) : Maker := ⟨k.arity, k.candidates⟩

def oneOf : Maker := ofKind .oneOf

end Maker

/-- A named maker of candidates. -/
structure Factory where
  name : String
  maker : Maker

def Factory.arity (f : Factory) : Nat := f.maker.arity

/-- The factories in use, in the order in which they make candidates. -/
structure Factories where
  list : List Factory := []

namespace Factories

/-- The factories of some kinds, under the kinds' names. -/
def ofKinds (ks : List Kind) : Factories := ⟨ks.map fun k => ⟨k.name, .ofKind k⟩⟩

/-- One factory for every kind. -/
def standard : Factories := ofKinds Kind.all

def filter (fs : Factories) (keep : Factory → Bool) : Factories := ⟨fs.list.filter keep⟩

/-- The factories with one more, or nothing if one of its name is there already. -/
def register? (fs : Factories) (f : Factory) : Option Factories :=
  if fs.list.any (·.name == f.name) then none else some ⟨fs.list ++ [f]⟩

def hasArity (fs : Factories) (n : Nat) : Bool := fs.list.any (·.arity = n)

/-- The candidates that the factories for so many variables make for some variables. -/
def candidates (fs : Factories) (vars : List Variable) : List Invariant :=
  (fs.list.filter (·.arity = vars.length)).flatMap (·.maker.candidates vars)

end Factories

end LikelyInvariants
