import LikelyInvariants.Proofs.Prover.Conversation
import LikelyInvariants.Prover.Script

/-!
# The life of a bridge

A bridge holds a conversation or not, has a state, and counts its starts. Every call updates these
on its own, and any start and any request may fail. What ties them together is `Consistent`: the
state says whether a conversation is held, a conversation that is held was tried out, and the starts
that were made are counted and stay within what was granted. A consistent bridge that has failed is
the same after every call (`Consistent.call_of_failed`).
-/

namespace LikelyInvariants

namespace Bridge

/-- A call to a bridge. -/
inductive Call where
  | ensureStarted
  | request (command : ProverCommand)
  | restart
  | shutdown

/-- What a call gives back. -/
inductive Answer where
  | started (worked : Bool)
  | replied (reply : ProverReply)
  | done

def call (b : Bridge) : Call → Answer × Bridge
  | .ensureStarted => (.started b.ensureStarted.1, b.ensureStarted.2)
  | .request c => (.replied (b.request c).1, (b.request c).2)
  | .restart => (.started b.restart.1, b.restart.2)
  | .shutdown => (.done, b.shutdown)

/-- The bridge after some calls. -/
def after (b : Bridge) (calls : List Call) : Bridge := calls.foldl (fun b c => (b.call c).2) b

/-- A bridge to which no call was made yet. -/
inductive IsBuilt : Bridge → Prop
  | new (p : Prover) (maxStarts : Nat) : IsBuilt (new p maxStarts)
  | disabled : IsBuilt disabled

/-- The conversation that is going on accepted the axioms and passed the sanity check before
anything else was sent in it, and no request in it has failed. -/
inductive IsTriedOut : List ProverEvent → Prop
  | opened (r : ProverResponse) (older : List ProverEvent) :
    IsTriedOut (.requested (.check sanityFormula) (.ok .valid) ::
      .requested (.assume axiomPreamble) (.ok r) :: .launched none :: older)
  | requested {now : List ProverEvent} (h : IsTriedOut now) (c : ProverCommand)
    (r : ProverResponse) : IsTriedOut (.requested c (.ok r) :: now)

variable {b b' : Bridge} {p : Prover} {c : ProverCommand}

theorem after_append (b : Bridge) (calls more : List Call) :
    b.after (calls ++ more) = (b.after calls).after more := by
  unfold after
  exact List.foldl_append

/-! ### Consistency -/

section Consistency

/-- How the session, the state, the count of the starts and the history of a bridge agree. -/
structure Consistent (b : Bridge) : Prop where
  ready : b.state = .ready ↔ b.session = true
  prover : b.session = true → b.prover ≠ none
  triedOut : b.session = true → IsTriedOut b.history
  starts : b.starts = launchCount b.history
  budget : b.starts ≤ b.maxStarts
  failed : b.state = .failed → b.prover = none ∨ b.starts = b.maxStarts

theorem IsBuilt.consistent (h : b.IsBuilt) : b.Consistent := by
  cases h with
  | new p maxStarts =>
    have hnone : (Bridge.new p maxStarts).session ≠ true := Bool.false_ne_true
    refine ⟨by simp [Bridge.new], (absurd · hnone), (absurd · hnone), rfl, Nat.zero_le _, ?_⟩
    intro hfailed
    cases hfailed
  | disabled =>
    have hnone : Bridge.disabled.session ≠ true := Bool.false_ne_true
    exact ⟨by simp [Bridge.disabled], (absurd · hnone), (absurd · hnone), rfl, Nat.zero_le _,
      fun _ => .inl rfl⟩

theorem Consistent.isQuiet (h : b.Consistent) (hstate : b.state ≠ .ready) : b.IsQuiet := by
  have hsession : b.session ≠ true := fun hsession => hstate (h.ready.mpr hsession)
  exact ⟨Bool.eq_false_iff.mpr hsession, hstate⟩

theorem Consistent.isAt (h : b.Consistent) : b.IsAt (assumptions b.history) := by
  by_cases hstate : b.state = .ready
  · have hsession := h.ready.mp hstate
    obtain ⟨p, hprover⟩ := Option.ne_none_iff_exists'.mp (h.prover hsession)
    exact .talking hprover hsession hstate rfl
  · exact .quiet (h.isQuiet hstate)

theorem Consistent.shutdown (h : b.Consistent) : b.shutdown.Consistent := by
  have hquiet := b.isQuiet_shutdown
  refine ⟨?_, nofun, nofun, h.starts, h.budget, fun hfailed => ?_⟩
  · simp [hquiet.session, hquiet.state]
  · refine h.failed ?_
    unfold Bridge.shutdown at hfailed
    dsimp only at hfailed
    split at hfailed
    · cases hfailed
    · exact hfailed

theorem Consistent.request (h : b.Consistent) (c : ProverCommand) : (b.request c).2.Consistent := by
  by_cases hstate : b.state = .ready
  · have hsession : b.session = true := h.ready.mp hstate
    obtain ⟨p, hprover⟩ := Option.ne_none_iff_exists'.mp (h.prover hsession)
    have hstarts (reply : ProverReply) :
        b.starts = launchCount (.requested c reply :: b.history) := by
      rw [h.starts]
      simp [launchCount]
    rw [request_of_talking hprover hsession]
    cases p.answer b.history c with
    | ok r =>
      exact ⟨h.ready, h.prover, fun _ => .requested (h.triedOut hsession) c r, hstarts _, h.budget,
        h.failed⟩
    | error e =>
      have hquiet := isQuiet_shutdown { b with history := .requested c (.error e) :: b.history }
      refine ⟨?_, nofun, nofun, hstarts _, h.budget, fun hfailed => ?_⟩
      · simp [hquiet.session, hquiet.state]
      · simp [Bridge.shutdown, hstate] at hfailed
  · rw [request_of_isQuiet (h.isQuiet hstate)]
    exact h

/-- As long as starts are left, a start leaves the bridge consistent however it turns out. -/
theorem Consistent.afterStart {worked : Bool} {now : List ProverEvent} (h : b.Consistent)
    (hquiet : b.IsQuiet) (hprover : b.prover ≠ none) (hleft : b.starts < b.maxStarts)
    (hstartup : Startup b.history worked now) : (b.afterStart worked now).Consistent := by
  have hstarts : b.starts + 1 = launchCount now := by
    have hbefore := h.starts
    unfold launchCount at hbefore ⊢
    cases hstartup <;> simp [hbefore]
  have hunready : b.state = .ready ↔ (b.session || false) = true := by
    simp [hquiet.session, hquiet.state]
  have hunused : (b.session || false) ≠ true := by simp [hquiet.session]
  have hunfailed : b.state ≠ .failed := by
    intro hfailed
    rcases h.failed hfailed with hnone | hspent
    · exact hprover hnone
    · omega
  cases hstartup with
  | usable r =>
    have hheld : (b.session || true) = true := Bool.or_true _
    exact ⟨iff_of_true rfl hheld, fun _ => hprover, fun _ => .opened r _, hstarts, hleft, nofun⟩
  | _ =>
    exact ⟨hunready, fun hsession => absurd hsession hunused,
      fun hsession => absurd hsession hunused, hstarts, hleft, fun hfailed => absurd hfailed hunfailed⟩

theorem Consistent.startUpTo (n : Nat) {b : Bridge} (h : b.Consistent) (hquiet : b.IsQuiet)
    (hprover : b.prover ≠ none) (hleft : b.maxStarts - b.starts = n) :
    (startUpTo p n b).2.Consistent := by
  induction n generalizing b with
  | zero =>
    have hspent : b.starts = b.maxStarts := by
      have hbudget := h.budget
      omega
    have hnone : b.session ≠ true := by simp [hquiet.session]
    exact ⟨iff_of_false nofun hnone, h.prover, h.triedOut, h.starts, h.budget, fun _ => .inr hspent⟩
  | succ n ih =>
    obtain ⟨worked, now, hstartup, hlaunch⟩ := b.launch_spec p
    have hafter := h.afterStart hquiet hprover (by omega) hstartup
    rw [Bridge.startUpTo, hlaunch]
    cases worked with
    | true => exact hafter
    | false =>
      have hstill : (b.afterStart false now).IsQuiet := hafter.isQuiet hquiet.state
      have hleft' : b.maxStarts - (b.starts + 1) = n := by omega
      exact ih hafter hstill hprover hleft'

theorem Consistent.ensureStarted (h : b.Consistent) : b.ensureStarted.2.Consistent := by
  unfold Bridge.ensureStarted
  split
  · exact h
  · next hstate =>
    split
    · exact h
    · next p hprover =>
      have hsome : b.prover ≠ none := by simp [hprover]
      exact h.startUpTo _ (h.isQuiet hstate) hsome rfl

theorem Consistent.call (h : b.Consistent) (c : Call) : (b.call c).2.Consistent := by
  cases c with
  | ensureStarted => exact h.ensureStarted
  | request c => exact h.request c
  | restart => exact h.shutdown.ensureStarted
  | shutdown => exact h.shutdown

theorem Consistent.after (h : b.Consistent) (calls : List Call) : (b.after calls).Consistent := by
  induction calls generalizing b with
  | nil => exact h
  | cons c calls ih => exact ih (h.call c)

end Consistency

/-! ### What no call changes -/

section Succession

/-- What a bridge keeps from call to call. -/
structure Succeeds (b b' : Bridge) : Prop where
  prover : b'.prover = b.prover
  maxStarts : b'.maxStarts = b.maxStarts
  starts : b.starts ≤ b'.starts

theorem succeeds_refl (b : Bridge) : b.Succeeds b := ⟨rfl, rfl, Nat.le_refl _⟩

theorem Succeeds.trans {b₁ b₂ b₃ : Bridge} (h : b₁.Succeeds b₂) (h' : b₂.Succeeds b₃) :
    b₁.Succeeds b₃ :=
  ⟨h'.prover.trans h.prover, h'.maxStarts.trans h.maxStarts, Nat.le_trans h.starts h'.starts⟩

theorem succeeds_request (b : Bridge) (c : ProverCommand) : b.Succeeds (b.request c).2 := by
  unfold request send
  dsimp only
  split
  · next p _ hprover => cases p.answer b.history c <;> exact ⟨rfl, rfl, Nat.le_refl _⟩
  · exact b.succeeds_refl

theorem succeeds_startUpTo (p : Prover) (n : Nat) (b : Bridge) :
    b.Succeeds (startUpTo p n b).2 := by
  induction n generalizing b with
  | zero => exact ⟨rfl, rfl, Nat.le_refl _⟩
  | succ n ih =>
    obtain ⟨worked, now, -, hlaunch⟩ := b.launch_spec p
    have hstarted : b.Succeeds (b.afterStart worked now) := ⟨rfl, rfl, Nat.le_succ _⟩
    rw [startUpTo, hlaunch]
    cases worked with
    | true => exact hstarted
    | false => exact hstarted.trans (ih _)

theorem succeeds_ensureStarted (b : Bridge) : b.Succeeds b.ensureStarted.2 := by
  unfold ensureStarted
  split
  · exact b.succeeds_refl
  · split
    · exact b.succeeds_refl
    · exact succeeds_startUpTo _ _ b

theorem succeeds_shutdown (b : Bridge) : b.Succeeds b.shutdown := ⟨rfl, rfl, Nat.le_refl _⟩

theorem succeeds_call (b : Bridge) (c : Call) : b.Succeeds (b.call c).2 := by
  cases c with
  | ensureStarted => exact b.succeeds_ensureStarted
  | request c => exact b.succeeds_request c
  | restart => exact b.succeeds_shutdown.trans b.shutdown.succeeds_ensureStarted
  | shutdown => exact b.succeeds_shutdown

theorem succeeds_after (b : Bridge) (calls : List Call) : b.Succeeds (b.after calls) := by
  induction calls generalizing b with
  | nil => exact b.succeeds_refl
  | cons c calls ih => exact (b.succeeds_call c).trans (ih _)

end Succession

/-! ### Failure is for good -/

section Failure

theorem Consistent.shutdown_of_failed (h : b.Consistent) (hfailed : b.state = .failed) :
    b.shutdown = b := by
  have hquiet := h.isQuiet (by simp [hfailed])
  unfold Bridge.shutdown
  rw [if_neg hquiet.state, ← hquiet.session]

theorem Consistent.ensureStarted_of_failed (h : b.Consistent) (hfailed : b.state = .failed) :
    b.ensureStarted = (false, b) := by
  have hstate : b.state ≠ .ready := by simp [hfailed]
  unfold Bridge.ensureStarted
  rw [if_neg hstate]
  split
  · rfl
  · next p hprover =>
    have hspent : b.starts = b.maxStarts := by
      rcases h.failed hfailed with hnone | hspent
      · simp [hprover] at hnone
      · exact hspent
    rw [hspent, Nat.sub_self, Bridge.startUpTo, ← hfailed]

theorem Consistent.call_of_failed (h : b.Consistent) (hfailed : b.state = .failed) (c : Call) :
    (b.call c).2 = b := by
  cases c with
  | ensureStarted => exact congrArg Prod.snd (h.ensureStarted_of_failed hfailed)
  | request c =>
    have hquiet := h.isQuiet (by simp [hfailed])
    exact congrArg Prod.snd (request_of_isQuiet hquiet)
  | restart =>
    have hsame := h.shutdown_of_failed hfailed
    have hrestart : b.restart = (false, b) := by
      rw [restart, hsame]
      exact h.ensureStarted_of_failed hfailed
    exact congrArg Prod.snd hrestart
  | shutdown => exact h.shutdown_of_failed hfailed

theorem Consistent.after_of_failed (h : b.Consistent) (hfailed : b.state = .failed)
    (calls : List Call) : b.after calls = b := by
  induction calls with
  | nil => rfl
  | cons c calls ih =>
    have hcall := h.call_of_failed hfailed c
    change (b.call c).2.after calls = b
    rw [hcall]
    exact ih

end Failure

/-! ### The life of a bridge -/

section Life

/-- **A bridge keeps its books.** Whatever calls are made to it and whatever the prover does, a
bridge is ready exactly when it holds a conversation, and a conversation it holds was tried out
before anything else was sent. Its starts are the ones that were made; they never become fewer, nor
more than were granted. A bridge that has failed has no prover or no start left, and it stays as it
is: nothing is started and every request is refused. After a request that fails no conversation is
held. -/
theorem lifecycle_after (hbuilt : b.IsBuilt) (calls : List Call) :
    ((b.after calls).state = .ready ↔ (b.after calls).session = true) ∧
    ((b.after calls).session = true → IsTriedOut (b.after calls).history) ∧
    ((b.after calls).starts = launchCount (b.after calls).history ∧
      (b.after calls).starts ≤ b.maxStarts ∧
      ∀ more, (b.after calls).starts ≤ (b.after (calls ++ more)).starts) ∧
    ((b.after calls).state = .failed →
      (b.prover = none ∨ (b.after calls).starts = b.maxStarts) ∧
      ∀ more, b.after (calls ++ more) = b.after calls ∧ ∀ c,
        (b.after (calls ++ more)).request c =
          (.error (.unavailable "bridge is Failed"), b.after calls)) ∧
    ∀ c e, ((b.after calls).request c).1 = .error e →
      ((b.after calls).request c).2.session = false := by
  have hnow : (b.after calls).Consistent := hbuilt.consistent.after calls
  obtain ⟨hprover, hmax, -⟩ := b.succeeds_after calls
  refine ⟨hnow.ready, hnow.triedOut, ⟨hnow.starts, hmax ▸ hnow.budget, fun more => ?_⟩,
    fun hfailed => ⟨?_, fun more => ?_⟩, fun c e herror => ?_⟩
  · rw [after_append]
    exact ((b.after calls).succeeds_after more).starts
  · rcases hnow.failed hfailed with hnone | hspent
    · exact .inl (hprover.symm.trans hnone)
    · exact .inr (hspent.trans hmax)
  · have hsame : b.after (calls ++ more) = b.after calls := by
      rw [after_append]
      exact hnow.after_of_failed hfailed more
    refine ⟨hsame, fun c => ?_⟩
    have hquiet := hnow.isQuiet (by simp [hfailed])
    rw [hsame, request_of_isQuiet hquiet, hfailed]
    rfl
  · have hover := hnow.isAt.request_error (Prod.ext herror rfl)
    exact hover.session

/-- Whatever is checked once a conversation was tried out takes too long. -/
def slow : Prover where
  launch _ := none
  answer
    | _, .assume _ | _, .undo => .ok .ack
    | _, .check f => if f = sanityFormula then .ok .valid else .error (.timeout 5)

/-- Two conversations are started, and both end with a check that fails. -/
def twoChecks : List Call :=
  [.ensureStarted, .request (.check "(> x 0)"), .restart, .request (.check "(> x 0)")]

/-- A bridge with two starts holds a conversation before each of the checks and has failed when it
is to start a third one. -/
theorem lifecycle_after_twoChecks : (new slow 2).IsBuilt ∧
    IsTriedOut ((new slow 2).after (twoChecks.take 3)).history ∧
    (((new slow 2).after (twoChecks.take 3)).request (.check "(> x 0)")).2.session = false ∧
    ((new slow 2).after (twoChecks ++ [.ensureStarted])).starts = 2 ∧
    ((new slow 2).after (twoChecks ++ [.ensureStarted] ++ [.restart])).request .undo =
      (.error (.unavailable "bridge is Failed"),
        (new slow 2).after (twoChecks ++ [.ensureStarted])) := by
  obtain ⟨-, htried, -, -, hover⟩ := lifecycle_after (.new slow 2) (twoChecks.take 3)
  obtain ⟨-, -, -, hfailed, -⟩ := lifecycle_after (.new slow 2) (twoChecks ++ [.ensureStarted])
  obtain ⟨hspent, hstays⟩ := hfailed rfl
  refine ⟨.new slow 2, htried rfl, hover _ _ rfl, ?_, (hstays [.restart]).2 .undo⟩
  exact hspent.resolve_left nofun

end Life

end Bridge

end LikelyInvariants
