import LikelyInvariants.Point

/-!
# Samples at a point

A raw sample has a value for every observed variable that is not constant. It is extended with the
derived variables, in catalog order, so that the variables a value is derived from come before it.
An extended sample is fed to every open slice; slices that are left without invariants are closed.
-/

namespace LikelyInvariants.Point

/-- Fails unless a sample has a slot for each variable that is not constant. -/
def checkArity (p : Point) (s : Sample) : Except Error Unit :=
  if s.size = p.catalog.slotCount then .ok ()
  else .error (.arityMismatch p.name p.catalog.slotCount s.size)

/-- A sample while it is being extended. -/
structure Extension where
  /-- The slots of the variables so far. -/
  slots : List (Option Reading) := []
  /-- What is left of the raw sample. -/
  raw : List (Option Reading)
  /-- The derivations that are left. -/
  derivations : List (Nat × Derivation)

namespace Extension

/-- The slot of a derived variable: missing if one of the variables it is derived from is missing
or the recipe has no result, else in their joint state. -/
def derivedSlot (x : Extension) (c : Catalog) (d : Derivation) : Option Reading := do
  let t ← c.project? d.bases ⟨x.slots⟩
  let value ← d.compute? t.values
  Reading.of? value t.state

/-- Goes on to the next variable of the catalog. -/
def step (c : Catalog) (x : Extension) (v : Variable) : Extension :=
  if v.isConstant then x
  else
    match x.derivations with
    | (i, d) :: rest =>
      if i = v.index then
        { x with slots := x.slots ++ [x.derivedSlot c d], derivations := rest }
      else { x with slots := x.slots ++ [x.raw.head?.join], raw := x.raw.tail }
    | [] => { x with slots := x.slots ++ [x.raw.head?.join], raw := x.raw.tail }

end Extension

/-- The sample of all variables for a sample of the observed ones. -/
def extend (p : Point) (raw : Sample) : Except Error Sample :=
  if raw.size ≠ p.observedCount then
    .error (.arityMismatch p.name p.observedCount raw.size)
  else
    let x := p.catalog.vars.foldl (Extension.step p.catalog)
      { raw := raw.slots, derivations := p.derivations }
    if x.derivations.isEmpty then .ok ⟨x.slots⟩ else .error (.missingDerivation p.name)

/-- Feeds a sample to the open slices and closes those that are left without invariants. -/
def feed (p : Point) (s : Sample) (count : Nat) : Point :=
  let fed := p.slices.map fun slice =>
    if slice.isEmpty then slice else slice.add p.catalog s count
  { p with slices := fed.filter (!·.isEmpty), samples := p.samples + count }

end LikelyInvariants.Point
