import LikelyInvariants.Prover.Bridge

/-!
# What is assumed in a conversation

The assumptions of a conversation are a stack, and the history of a bridge tells what is on it
(`assumptions`). What is known of a bridge is its stack, if a conversation is going on at all
(`Bridge.IsAt`): a request that succeeds moves the stack, one that fails ends the conversation, and
a new conversation begins with the axioms.

What formulas mean is the prover's affair. An **interpretation** says of which situations a formula
is true, and it is asked only that conjunctions and implications mean what they say. A sound prover
finds valid only what the assumptions entail (`Prover.IsSound`).
-/

namespace LikelyInvariants

/-! ## Interpretations -/

section Interpretations

/-- A meaning for the texts that are sent to a prover. A text that is no formula is true nowhere. -/
structure Interpretation where
  Situation : Type
  IsTrue : Situation → String → Prop
  conj : ∀ (w : Situation) (fs : List String), (∀ f ∈ fs, IsTrue w f) → IsTrue w (conjunction fs)
  imp : ∀ (w : Situation) (f g : String),
    IsTrue w s!"(IMPLIES {f} {g})" → IsTrue w f → IsTrue w g

/-- A formula is true wherever some others are. -/
def Interpretation.Entails (r : Interpretation) (assumed : List String) (f : String) : Prop :=
  ∀ w : r.Situation, (∀ g ∈ assumed, r.IsTrue w g) → r.IsTrue w f

end Interpretations

/-! ## Stacks -/

section Stacks

/-- What a request that succeeds does to the stack of assumptions, the last one first. -/
def ProverCommand.move : ProverCommand → List String → List String
  | assume f, stack => f :: stack
  | check _, stack => stack
  | undo, stack => stack.tail

/-- What is assumed after some events, the last event first. A conversation begins with nothing
assumed, and a request that fails does nothing. -/
def assumptions : List ProverEvent → List String
  | [] => []
  | .launched _ :: _ => []
  | .requested c (.ok _) :: earlier => c.move (assumptions earlier)
  | .requested _ (.error _) :: earlier => assumptions earlier

/-- The prover finds a formula valid only if it follows from what is assumed. It may do anything
else at any time. -/
def Prover.IsSound (p : Prover) (r : Interpretation) : Prop :=
  ∀ (history : List ProverEvent) (f : String), p.answer history (.check f) = .ok .valid →
    r.Entails (assumptions history) f

end Stacks

/-! ## Theories -/

section Theories

/-- A prover that finds some formulas valid and all others invalid, whatever is assumed. -/
def Prover.knowing (theorems : List String) : Prover where
  launch _ := none
  answer
    | _, .assume _ | _, .undo => .ok .ack
    | _, .check f => .ok (if f ∈ theorems then .valid else .invalid)

/-- The interpretation in which some formulas are true everywhere and nothing else is known: the
situations are the theories that contain them. -/
def Interpretation.ofTheorems (theorems : List String) : Interpretation where
  Situation := { holds : String → Prop //
    (∀ f ∈ theorems, holds f) ∧ (∀ fs : List String, (∀ f ∈ fs, holds f) → holds (conjunction fs)) ∧
      ∀ f g, holds s!"(IMPLIES {f} {g})" → holds f → holds g }
  IsTrue w f := w.val f
  conj w := w.property.2.1
  imp w := w.property.2.2

theorem Prover.isSound_knowing (theorems : List String) :
    (Prover.knowing theorems).IsSound (.ofTheorems theorems) := by
  intro history f hvalid w _
  by_cases hf : f ∈ theorems
  · exact w.property.1 f hf
  · simp [Prover.knowing, hf] at hvalid

end Theories

/-! ## Bridges -/

namespace Bridge

/-- No conversation is going on. -/
structure IsQuiet (b : Bridge) : Prop where
  session : b.session = false
  state : b.state ≠ .ready

/-- If a conversation is going on, this is its stack of assumptions. -/
inductive IsAt (b : Bridge) (stack : List String) : Prop
  | quiet (h : b.IsQuiet)
  | talking {p : Prover} (hprover : b.prover = some p) (hsession : b.session = true)
      (hstate : b.state = .ready) (hstack : assumptions b.history = stack)

theorem isQuiet_new (p : Prover) (maxStarts : Nat) : (new p maxStarts).IsQuiet :=
  ⟨rfl, by simp [new]⟩

variable {b b' : Bridge} {stack : List String} {c : ProverCommand} {p : Prover}

/-! ### Requests -/

section Requests

theorem request_of_isQuiet (h : b.IsQuiet) :
    b.request c = (.error (.unavailable s!"bridge is {b.state.name}"), b) := by
  unfold request
  rw [h.session]

/-- A request in a conversation gets the prover's answer. -/
theorem request_of_talking (hprover : b.prover = some p) (hsession : b.session = true) :
    b.request c = match p.answer b.history c with
      | .ok r => (.ok r, { b with history := .requested c (.ok r) :: b.history })
      | .error e =>
        (.error e,
          { b with history := .requested c (.error e) :: b.history : Bridge }.shutdown) := by
  unfold request send
  rw [hprover, hsession]
  dsimp only
  cases p.answer b.history c <;> rfl

theorem prover_request (b : Bridge) (c : ProverCommand) : (b.request c).2.prover = b.prover := by
  unfold request send
  dsimp only
  split
  · next p _ hprover => cases p.answer b.history c <;> rfl
  · rfl

/-- A request that succeeds moves the stack. -/
theorem IsAt.request_ok {r : ProverResponse} (h : b.IsAt stack) (hr : b.request c = (.ok r, b')) :
    b'.IsAt (c.move stack) := by
  cases h with
  | quiet h =>
    rw [request_of_isQuiet h] at hr
    cases hr
  | talking hprover hsession hstate hstack =>
    rw [request_of_talking hprover hsession] at hr
    split at hr
    · cases hr
      exact .talking hprover hsession hstate (by rw [assumptions, hstack])
    · cases hr

theorem isQuiet_shutdown (b : Bridge) : b.shutdown.IsQuiet := by
  refine ⟨rfl, ?_⟩
  unfold shutdown
  dsimp only
  split
  · simp
  · assumption

/-- A request that fails leaves no conversation. -/
theorem IsAt.request_error {e : ProverError} (h : b.IsAt stack)
    (hr : b.request c = (.error e, b')) : b'.IsQuiet := by
  cases h with
  | quiet h =>
    rw [request_of_isQuiet h] at hr
    cases hr
    exact h
  | talking hprover hsession hstate hstack =>
    rw [request_of_talking hprover hsession] at hr
    split at hr
    · cases hr
    · cases hr
      exact isQuiet_shutdown _

/-- The last assumption can be taken back. -/
theorem IsAt.undo {f : String} (h : b.IsAt (f :: stack)) : (b.request .undo).2.IsAt stack := by
  rcases hr : b.request .undo with ⟨e | r, b'⟩
  · exact .quiet (h.request_error hr)
  · exact h.request_ok hr

/-- What a sound prover finds valid follows from the stack. -/
theorem IsAt.entails {r : Interpretation} {f : String} (h : b.IsAt stack)
    (hsound : ∀ p, b.prover = some p → p.IsSound r)
    (hr : b.request (.check f) = (.ok .valid, b')) : r.Entails stack f := by
  cases h with
  | quiet h =>
    rw [request_of_isQuiet h] at hr
    cases hr
  | talking hprover hsession hstate hstack =>
    rw [request_of_talking hprover hsession] at hr
    split at hr
    · next answer hanswer =>
      cases hr
      rw [← hstack]
      exact hsound _ hprover _ _ hanswer
    · cases hr

end Requests

/-! ### Starts -/

section Starts

/-- What a start adds to a history, and whether it leads to a conversation. -/
inductive Startup (older : List ProverEvent) : Bool → List ProverEvent → Prop
  | refused (e : ProverError) : Startup older false (.launched (some e) :: older)
  | broken (e : ProverError) :
    Startup older false (.requested (.assume axiomPreamble) (.error e) :: .launched none :: older)
  | insane (r : ProverResponse) (v : ProverReply) (h : v ≠ .ok .valid) :
    Startup older false (.requested (.check sanityFormula) v ::
      .requested (.assume axiomPreamble) (.ok r) :: .launched none :: older)
  | usable (r : ProverResponse) :
    Startup older true (.requested (.check sanityFormula) (.ok .valid) ::
      .requested (.assume axiomPreamble) (.ok r) :: .launched none :: older)

/-- The bridge after a start that turned out like this. -/
def afterStart (b : Bridge) (worked : Bool) (now : List ProverEvent) : Bridge :=
  { b with
    session := b.session || worked
    state := if worked then .ready else b.state
    starts := b.starts + 1
    history := now }

/-- All that a start can do. -/
theorem launch_spec (b : Bridge) (p : Prover) : ∃ worked now,
    Startup b.history worked now ∧ b.launch p = (worked, b.afterStart worked now) := by
  unfold launch
  cases hlaunch : p.launch b.history with
  | some e => exact ⟨_, _, .refused e, by simp [afterStart]⟩
  | none =>
    simp only [send]
    cases hassume : p.answer (.launched none :: b.history) (.assume axiomPreamble) with
    | error e => exact ⟨_, _, .broken e, by simp [afterStart]⟩
    | ok r =>
      simp only
      cases hcheck : p.answer (.requested (.assume axiomPreamble) (.ok r) :: .launched none ::
        b.history) (.check sanityFormula) with
      | error e => exact ⟨_, _, .insane r (.error e) nofun, by simp [afterStart]⟩
      | ok v =>
        cases v with
        | valid => exact ⟨_, _, .usable r, by simp [afterStart]⟩
        | ack => exact ⟨_, _, .insane r (.ok .ack) nofun, by simp [afterStart]⟩
        | invalid => exact ⟨_, _, .insane r (.ok .invalid) nofun, by simp [afterStart]⟩

/-- A start leads to a conversation in which the axioms are assumed, or to none. -/
theorem isAt_launch (h : b.IsQuiet) (hprover : b.prover = some p) :
    (b.launch p).2.prover = b.prover ∧ (b.launch p).2.IsAt [axiomPreamble] ∧
      ((b.launch p).1 = false → (b.launch p).2.IsQuiet) := by
  obtain ⟨worked, now, hstartup, hlaunch⟩ := b.launch_spec p
  rw [hlaunch]
  have hquiet : (b.afterStart false now).IsQuiet := by
    refine ⟨?_, h.state⟩
    rw [afterStart, h.session, Bool.or_false]
  cases hstartup with
  | usable r => exact ⟨rfl, .talking hprover (Bool.or_true _) rfl rfl, nofun⟩
  | _ => exact ⟨rfl, .quiet hquiet, fun _ => hquiet⟩

theorem isAt_startUpTo (n : Nat) {b : Bridge} (h : b.IsQuiet) (hprover : b.prover = some p) :
    (startUpTo p n b).2.prover = b.prover ∧ (startUpTo p n b).2.IsAt [axiomPreamble] ∧
      ((startUpTo p n b).1 = false → (startUpTo p n b).2.IsQuiet) := by
  induction n generalizing b with
  | zero =>
    have hquiet : ({ b with state := .failed } : Bridge).IsQuiet := ⟨h.session, by simp⟩
    exact ⟨rfl, .quiet hquiet, fun _ => hquiet⟩
  | succ n ih =>
    obtain ⟨hsame, hat, hquiet⟩ := isAt_launch h hprover
    rw [startUpTo]
    rcases hlaunch : b.launch p with ⟨started, b₁⟩
    rw [hlaunch] at hsame hat hquiet
    cases started with
    | true => exact ⟨hsame, hat, nofun⟩
    | false =>
      obtain ⟨hsame', hat', hquiet'⟩ := ih (hquiet rfl) (hsame.trans hprover)
      exact ⟨hsame'.trans hsame, hat', hquiet'⟩

/-- A conversation is started if none is going on. If the axioms were all that was assumed, they
still are. -/
theorem IsAt.ensureStarted (h : b.IsAt [axiomPreamble]) :
    b.ensureStarted.2.prover = b.prover ∧ b.ensureStarted.2.IsAt [axiomPreamble] ∧
      (b.ensureStarted.1 = false → b.ensureStarted.2.IsQuiet) := by
  unfold Bridge.ensureStarted
  split
  · exact ⟨rfl, h, nofun⟩
  · next hstate =>
    cases h with
    | talking _ _ hready => exact absurd hready hstate
    | quiet h =>
      split
      · exact ⟨rfl, .quiet h, fun _ => h⟩
      · next p hprover => exact isAt_startUpTo _ h hprover

/-- Whatever was assumed before, after a restart only the axioms are. -/
theorem isAt_restart (b : Bridge) :
    b.restart.2.prover = b.prover ∧ b.restart.2.IsAt [axiomPreamble] ∧
      (b.restart.1 = false → b.restart.2.IsQuiet) :=
  IsAt.ensureStarted (.quiet b.isQuiet_shutdown)

end Starts

end Bridge

end LikelyInvariants
