import LikelyInvariants.Point
import LikelyInvariants.Prover.Command
import LikelyInvariants.Redundancy.Equality

/-!
# Candidates for redundancy

What a point holds to be true is checked for redundancy as far as the prover's language can express
it. The equalities between variables take part as one candidate for each class of equal variables.
Candidates are ordered by rank, and the order decides which of several that imply each other stay.
-/

namespace LikelyInvariants

/-- What candidates are ordered by. -/
structure Rank where
  kind : String
  names : List String
  detail : String
deriving DecidableEq

def Rank.compare (r s : Rank) : Ordering :=
  (Ord.compare r.kind s.kind).then <|
    (compareNames r.names s.names).then (Ord.compare r.detail s.detail)

/-- Something that may turn out to follow from the other candidates. -/
structure Candidate where
  /-- The mark it gets if it does. -/
  mark : Redundant
  rank : Rank
  /-- What it states, in the language of the prover. -/
  formula : String
deriving DecidableEq

/-- The two variables a finding states to be equal, if it states that. -/
def Finding.equality? : Finding → Option (Nat × Nat)
  | sliced s e =>
    match s.key with
    | [i, j] => if e.inv.isEquality then some (i, j) else none
    | _ => none
  | implication _ | unconditional _ => none

namespace Candidate

/-- The candidate for an invariant of a slice. -/
def ofSliced? (id : Nat) (c : Catalog) (s : Slice) (e : SliceEntry) : Option Candidate := do
  let names := c.names s.key
  let formula ← e.inv.render .prover names
  some
    { mark := .term (.invariant id e.id)
      rank := { kind := e.inv.kind.name, names, detail := e.inv.detail }
      formula }

/-- The candidate for a finding that is not an equality. -/
def ofFinding? (id : Nat) (c : Catalog) : Finding → Option Candidate
  | .sliced s e => ofSliced? id c s e
  | .implication i => do
    let formula ← i.render .prover
    some
      { mark := .implication i.predicate.source i.consequent.source
        rank := { kind := "Implication", names := [], detail := i.predicate.text ++ i.consequent.text }
        formula }
  | .unconditional t => do
    let formula ← t.prover
    some
      { mark := .term t.source
        rank := { kind := "Unconditional", names := t.formula.names, detail := t.text }
        formula }

/-- The candidate for a class of equal variables: each of them equals the leader. -/
def ofClass (c : Catalog) (k : EqualityClass) : Candidate where
  mark := .leader k.leader
  rank := { kind := "Equality", names := c.names k.members, detail := "" }
  formula :=
    let symbol (i : Nat) : String := ((c.names [i]).map (Dialect.name .prover)).headD ""
    conjunction (k.others.map fun i => s!"(EQ {symbol k.leader} {symbol i})")

end Candidate

/-- The candidates among some findings of a point, in the order of their ranks. -/
def Point.candidates (p : Point) (id : Nat) (included : Finding → Bool) : List Candidate :=
  let findings := p.findings.filter included
  let single := (findings.filter (·.equality?.isNone)).filterMap (Candidate.ofFinding? id p.catalog)
  let classes := EqualityClass.ofPairs (findings.filterMap Finding.equality?)
  (single ++ classes.map (Candidate.ofClass p.catalog)).mergeSort fun c d =>
    (c.rank.compare d.rank).isLE

/-- The formulas of an invariant of a slice at a controlling point. If the point is about an
object, the invariant is restated for the state before the call. -/
def Point.backgroundFormulas (p : Point) (s : Slice) (e : SliceEntry) : List String :=
  let names := p.catalog.names s.key
  let before := names.map fun name => s!"orig({name})"
  let wanted := if p.isObject then [names, before] else [names]
  wanted.filterMap (e.inv.render .prover)

/-- What a controlling point contributes to the background: the invariants of its slices among some
findings. -/
def Point.background (p : Point) (included : Finding → Bool) : String :=
  conjunction <| (p.findings.filter included).flatMap fun
    | .sliced s e => p.backgroundFormulas s e
    | .implication _ | .unconditional _ => []

end LikelyInvariants
