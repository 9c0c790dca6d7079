import LikelyInvariants.Prover.Bridge
import LikelyInvariants.Text.Occurrence

/-!
# Scripted provers

A prover that follows a script: how each start turns out, and rules that say which requests get
which reply. Starts and requests are counted over all conversations.
-/

namespace LikelyInvariants

/-- Which request a rule is about. -/
inductive RequestSort where
  | axiomsAssumed
  | assumed
  | checked
  | undone
deriving DecidableEq

/-- The sort of a request; assuming exactly the axioms is a sort of its own. -/
def ProverCommand.sort : ProverCommand → RequestSort
  | .assume f => if f = axiomPreamble then .axiomsAssumed else .assumed
  | .check _ => .checked
  | .undo => .undone

/-- The formula of a request as far as rules see it. -/
def ProverCommand.ruleText (c : ProverCommand) : String :=
  match c with
  | .assume f => if f = axiomPreamble then "" else f
  | .check f => f
  | .undo => ""

/-- A rule of a script. Conditions that are absent are met. -/
structure ScriptRule where
  sort : Option RequestSort := none
  /-- The number of the request. -/
  number : Option Nat := none
  beginning : Option String := none
  ending : Option String := none
  part : Option String := none
  /-- A modulus and what the sum of the formula's bytes leaves by it. -/
  byteSum : Option (Nat × Nat) := none
  reply : ProverReply

/-- Whether a rule is about a request. -/
def ScriptRule.applies (r : ScriptRule) (number : Nat) (c : ProverCommand) : Bool :=
  let text := c.ruleText
  let sum := text.toUTF8.foldl (fun n b => n + b.toNat) 0
  r.sort.all (· = c.sort) && r.number.all (· = number) && r.beginning.all (beginsWith text) &&
    r.ending.all (endsWith text) && r.part.all (hasPart text) &&
    r.byteSum.all (fun (m, rest) => sum % m = rest)

/-- A script for a prover. -/
structure ProverScript where
  /-- How the starts turn out, in order; later ones succeed. -/
  launches : List (Option ProverError) := []
  rules : List ScriptRule := []
  /-- The reply to checks that no rule is about. -/
  checkReply : ProverReply := .ok .valid

/-- How many starts have happened. -/
def launchCount (history : List ProverEvent) : Nat :=
  history.countP fun
    | .launched _ => true
    | .requested _ _ => false

/-- How many requests have been sent. -/
def requestCount (history : List ProverEvent) : Nat :=
  history.countP fun
    | .launched _ => false
    | .requested _ _ => true

namespace ProverScript

/-- The reply to a request that no rule is about. -/
def defaultReply (s : ProverScript) : ProverCommand → ProverReply
  | .check f =>
    if f = sanityFormula then .ok .valid
    else if beginsWith f "(NOT " then .ok .invalid
    else s.checkReply
  | _ => .ok .ack

/-- The prover that follows the script. -/
def prover (s : ProverScript) : Prover where
  launch history := (s.launches[launchCount history]?).join
  answer history c :=
    match s.rules.find? (·.applies (requestCount history) c) with
    | some r => r.reply
    | none => s.defaultReply c

end ProverScript

end LikelyInvariants
