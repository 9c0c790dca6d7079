import LikelyInvariants.Context.Edges
import LikelyInvariants.Prover.Bridge
import LikelyInvariants.Redundancy.Candidate

/-!
# Redundancy

A candidate is redundant when it follows from the other candidates that are not redundant
themselves and from the background, which is what holds at the controlling points. The candidates
are checked from the last to the first; one that is found redundant takes no part in later checks,
so those that stay still entail it. If the candidates contradict each other, everything follows
from them and nothing is marked.

The first timeout of a pass costs one restart of the prover, and the candidate under check stays.
Any other failure ends the pass, and what was marked before stays marked.
-/

namespace LikelyInvariants

/-- How a pass ended. -/
inductive Outcome where
  /-- Every candidate was checked. -/
  | completed
  /-- There was no candidate. -/
  | nothingToCheck
  /-- No conversation with the prover could be started. -/
  | proverUnavailable
  /-- The candidates contradict each other. -/
  | contradictory
  /-- The prover failed on the way. -/
  | aborted
deriving DecidableEq

def Outcome.name : Outcome → String
  | completed => "Completed"
  | nothingToCheck => "NothingToCheck"
  | proverUnavailable => "ProverUnavailable"
  | contradictory => "Contradictory"
  | aborted => "Aborted"

/-- The result of a pass. -/
structure RedundancyReport where
  /-- How many candidates there were. -/
  examined : Nat
  /-- How many were marked. -/
  redundant : Nat
  outcome : Outcome
deriving DecidableEq

/-- What the prover says about a candidate. -/
inductive Verdict where
  /-- The other candidates contradict each other. -/
  | contradiction
  /-- The candidate follows from the others. -/
  | implied
  | independent

namespace Redundancy

/-- What has become of the candidates that were checked, in their order. -/
structure Progress where
  /-- The ones that stay. -/
  kept : List Candidate := []
  /-- The ones that follow from the rest. -/
  marked : List Candidate := []
  /-- Whether the prover was restarted. -/
  restarted : Bool := false
  bridge : Bridge

/-- Asks whether a candidate follows from the formulas of others, given as one. -/
def ask (b : Bridge) (others : String) (c : Candidate) : Except ProverError Verdict × Bridge :=
  match b.request (.check s!"(NOT {others})") with
  | (.error e, b) => (.error e, b)
  | (.ok .valid, b) => (.ok .contradiction, b)
  | (.ok _, b) =>
    match b.request (.check s!"(IMPLIES {others} {c.formula})") with
    | (.error e, b) => (.error e, b)
    | (.ok .valid, b) => (.ok .implied, b)
    | (.ok _, b) => (.ok .independent, b)

/-- Starts a conversation over and assumes the background again, and tells whether that worked. -/
def resume (b : Bridge) (background : ProverCommand) : Bool × Bridge :=
  match b.restart with
  | (false, b) => (false, b)
  | (true, b) =>
    match b.request background with
    | (.ok _, b) => (true, b)
    | (.error _, b) => (false, b)

/-- Checks the candidates that are left, given from the last to the first. -/
def check (background : ProverCommand) : List Candidate → Progress → Outcome × Progress
  | [], p => (.completed, p)
  | c :: earlier, p =>
    let others := conjunction ((earlier.reverse ++ p.kept).map Candidate.formula)
    match ask p.bridge others c with
    | (.ok .contradiction, bridge) => (.contradictory, { p with bridge })
    | (.ok .implied, bridge) => check background earlier { p with marked := c :: p.marked, bridge }
    | (.ok .independent, bridge) => check background earlier { p with kept := c :: p.kept, bridge }
    | (.error (.timeout _), bridge) =>
      if p.restarted then (.aborted, { p with bridge })
      else
        match resume bridge background with
        | (false, bridge) => (.aborted, { p with restarted := true, bridge })
        | (true, bridge) =>
          check background earlier { p with kept := c :: p.kept, restarted := true, bridge }
    | (.error _, bridge) => (.aborted, { p with bridge })

/-- A pass over some candidates: its outcome, the candidates it found redundant and the bridge
after it. -/
def pass (b : Bridge) (background : String) (candidates : List Candidate) :
    Outcome × List Candidate × Bridge :=
  let background := ProverCommand.assume background
  if candidates.isEmpty then (.nothingToCheck, [], b)
  else
    match b.ensureStarted with
    | (false, b) => (.proverUnavailable, [], b)
    | (true, b) =>
      match b.request background with
      | (.error _, b) => (.proverUnavailable, [], b)
      | (.ok _, bridge) =>
        match check background candidates.reverse { bridge } with
        | (.aborted, p) => (.aborted, p.marked, p.bridge)
        | (.contradictory, p) => (.contradictory, [], (p.bridge.request .undo).2)
        | (outcome, p) => (outcome, p.marked, (p.bridge.request .undo).2)

end Redundancy

/-- The point with marks for some candidates. -/
def Point.mark (p : Point) (marked : List Candidate) : Point :=
  { p with redundant := marked.foldl (fun ms c => insertMark c.mark ms) p.redundant }

namespace Context

/-- What is assumed while a point is checked: what the points that control it contribute. -/
def background (ctx : Context) (id : Nat) (included : Finding → Bool) : String :=
  conjunction <| (ctx.controllingClosure id).filterMap fun controller =>
    ctx.points[controller]?.map (·.background included)

/-- Marks what is redundant among some findings of a point. -/
def markImplied (id : Nat) (included : Finding → Bool) : Update Context RedundancyReport := do
  let ctx ← get
  let p ← ctx.point id
  let candidates := p.candidates id included
  let (outcome, marked, bridge) :=
    Redundancy.pass ctx.bridge (ctx.background id included) candidates
  set { ctx with points := ctx.points.set id (p.mark marked), bridge }
  return { examined := candidates.length, redundant := marked.length, outcome }

/-- Marks what is redundant among the findings of a point that are worth reporting. -/
def markImpliedWorthReporting (id : Nat) : Update Context RedundancyReport :=
  markImplied id Finding.isWorthReporting

end Context

end LikelyInvariants
