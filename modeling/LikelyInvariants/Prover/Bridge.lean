import LikelyInvariants.Prover.Axioms

/-!
# The bridge to a prover

The bridge starts conversations with a prover and gives up after so many starts. A conversation is
ready once the prover has accepted the axioms and answered a sanity check. A request that fails
ends the conversation; the next use of the bridge may start another.

A prover is any pair of functions that say how a start and how a request turn out, given everything
that has happened between the bridge and the prover so far. Every behaviour of a prover is of that
form, so what holds for every such pair holds whatever the prover does.
-/

namespace LikelyInvariants

/-- How a request turned out. -/
abbrev ProverReply : Type := Except ProverError ProverResponse

/-- Something that happened between the bridge and the prover. -/
inductive ProverEvent where
  /-- A conversation was to be started, which may have failed. -/
  | launched (failure : Option ProverError)
  | requested (command : ProverCommand) (reply : ProverReply)

/-- The behaviour of a prover, given what has happened so far, the last event first. -/
structure Prover where
  /-- Why a conversation cannot be started, if it cannot. -/
  launch : List ProverEvent → Option ProverError
  answer : List ProverEvent → ProverCommand → ProverReply

inductive BridgeState where
  /-- No conversation is going on; the next use of the bridge starts one. -/
  | unstarted
  /-- A conversation is going on. -/
  | ready
  /-- The starts are used up, or there is no prover. -/
  | failed
deriving DecidableEq

def BridgeState.name : BridgeState → String
  | unstarted => "Unstarted"
  | ready => "Ready"
  | failed => "Failed"

/-- A bridge to a prover. -/
structure Bridge where
  prover : Option Prover
  /-- Whether a conversation is held. -/
  session : Bool := false
  state : BridgeState
  starts : Nat := 0
  maxStarts : Nat
  /-- Everything that has happened, the last event first. -/
  history : List ProverEvent := []

namespace Bridge

/-- A bridge that may start conversations so many times. -/
def new (prover : Prover) (maxStarts : Nat) : Bridge :=
  { prover := some prover, state := .unstarted, maxStarts }

/-- A bridge without a prover. -/
def disabled : Bridge := { prover := none, state := .failed, maxStarts := 0 }

/-- The bridge after a request was sent, with the reply. -/
def send (b : Bridge) (p : Prover) (c : ProverCommand) : ProverReply × Bridge :=
  let reply := p.answer b.history c
  (reply, { b with history := .requested c reply :: b.history })

/-- Starts a conversation and tells whether it can be used. -/
def launch (b : Bridge) (p : Prover) : Bool × Bridge :=
  let failure := p.launch b.history
  let b := { b with starts := b.starts + 1, history := .launched failure :: b.history }
  match failure with
  | some _ => (false, b)
  | none =>
    match b.send p (.assume axiomPreamble) with
    | (.error _, b) => (false, b)
    | (.ok _, b) =>
      match b.send p (.check sanityFormula) with
      | (.ok .valid, b) => (true, { b with session := true, state := .ready })
      | (_, b) => (false, b)

/-- Starts conversations until one can be used, at most so many. -/
def startUpTo (p : Prover) : Nat → Bridge → Bool × Bridge
  | 0, b => (false, { b with state := .failed })
  | n + 1, b =>
    match b.launch p with
    | (true, b) => (true, b)
    | (false, b) => startUpTo p n b

/-- Starts a conversation if none is going on, and tells whether one is. -/
def ensureStarted (b : Bridge) : Bool × Bridge :=
  if b.state = .ready then (true, b)
  else
    match b.prover with
    | none => (false, b)
    | some p => startUpTo p (b.maxStarts - b.starts) b

/-- Ends the conversation. -/
def shutdown (b : Bridge) : Bridge :=
  { b with session := false, state := if b.state = .ready then .unstarted else b.state }

/-- Sends a request in the conversation that is going on. If it fails the conversation ends. -/
def request (b : Bridge) (c : ProverCommand) : ProverReply × Bridge :=
  match b.session, b.prover with
  | true, some p =>
    match b.send p c with
    | (.ok r, b) => (.ok r, b)
    | (.error e, b) => (.error e, b.shutdown)
  | _, _ => (.error (.unavailable s!"bridge is {b.state.name}"), b)

/-- Ends the conversation and starts another. -/
def restart (b : Bridge) : Bool × Bridge := b.shutdown.ensureStarted

end Bridge

end LikelyInvariants
