import LikelyInvariants.Proofs.Redundancy.Entailment
import Mathlib.Data.List.Induction

/-!
# What is sent to a prover, and when

A history tells of every request whether it was in order. A request is sent in a conversation in
which no request has failed (`IsLive`). A check is sent by a pass when the background of the pass
and the axioms are assumed and nothing else is, except for the check that tries a new conversation
out (`IsTrial`).

A pass ends in many ways, and only some of them take the background back. In the others the
conversation is over. That is what a bridge keeps to from the beginning of a pass to its end
(`Bridge.Behaves`): what it has sent since then was in order, and if a conversation is going on, it
is live and its stack is known. So the next pass finds the axioms alone, or no conversation.
-/

namespace LikelyInvariants

open Update

/-! ## Histories in order -/

section Histories

/-- The last conversation was started, and no request in it has failed. -/
def IsLive : List ProverEvent → Prop
  | [] => False
  | .launched failure :: _ => failure = none
  | .requested _ (.ok _) :: earlier => IsLive earlier
  | .requested _ (.error _) :: _ => False

/-- A check that is sent after these events tries a new conversation out: only the axioms have been
sent in it. -/
def IsTrial (f : String) (earlier : List ProverEvent) : Prop :=
  f = sanityFormula ∧ ∃ r older,
    earlier = .requested (.assume axiomPreamble) (.ok r) :: .launched none :: older

variable {assumed : List String} {since now : List ProverEvent} {c : ProverCommand}

/-- A request is in order after these events, in a pass that checks under these assumptions. -/
structure InOrder (assumed : List String) (c : ProverCommand) (earlier : List ProverEvent) :
    Prop where
  live : IsLive earlier
  check : ∀ f, c = .check f → ¬IsTrial f earlier → assumptions earlier = assumed

/-- A history goes on, and its new requests are in order. -/
inductive Talk (assumed : List String) (since : List ProverEvent) : List ProverEvent → Prop
  | silent : Talk assumed since since
  | launched {now : List ProverEvent} (k : Talk assumed since now) (failure : Option ProverError) :
      Talk assumed since (.launched failure :: now)
  | requested {now : List ProverEvent} {c : ProverCommand} (k : Talk assumed since now)
      (h : InOrder assumed c now) (reply : ProverReply) :
      Talk assumed since (.requested c reply :: now)

theorem Talk.suffix (k : Talk assumed since now) : since <:+ now := by
  induction k with
  | silent => exact List.suffix_rfl
  | launched _ failure ih => exact ih.trans (List.suffix_cons _ _)
  | requested _ _ reply ih => exact ih.trans (List.suffix_cons _ _)

/-- A request was sent before, or it is new and in order. -/
theorem Talk.request {reply : ProverReply} {earlier : List ProverEvent}
    (k : Talk assumed since now) (h : .requested c reply :: earlier <:+ now) :
    .requested c reply :: earlier <:+ since ∨ since <:+ earlier ∧ InOrder assumed c earlier := by
  induction k with
  | silent => exact .inl h
  | launched k failure ih =>
    rcases List.suffix_cons_iff.mp h with heq | hearlier
    · cases heq
    · exact ih hearlier
  | requested k horder reply' ih =>
    rcases List.suffix_cons_iff.mp h with heq | hearlier
    · cases heq
      exact .inr ⟨k.suffix, horder⟩
    · exact ih hearlier

end Histories

/-! ## Bridges -/

namespace Bridge

/-- What a bridge keeps to in a pass that checks under these assumptions: since some events it has
sent nothing out of order, and if a conversation is going on, it is live and has this stack. -/
structure Behaves (b : Bridge) (assumed : List String) (since : List ProverEvent)
    (stack : List String) : Prop where
  isAt : b.IsAt stack
  live : b.session = true → IsLive b.history
  talk : Talk assumed since b.history

/-- Nothing has happened yet. -/
structure IsFresh (b : Bridge) : Prop where
  quiet : b.IsQuiet
  history : b.history = []

theorem isFresh_new (p : Prover) (maxStarts : Nat) : (new p maxStarts).IsFresh :=
  ⟨isQuiet_new p maxStarts, rfl⟩

variable {b b' : Bridge} {assumed stack : List String} {since : List ProverEvent}
  {c : ProverCommand} {p : Prover}

/-- Without a conversation any stack will do. -/
theorem Behaves.of_isQuiet (h : b.Behaves assumed since stack) (hquiet : b.IsQuiet)
    (other : List String) : b.Behaves assumed since other :=
  ⟨.quiet hquiet, h.live, h.talk⟩

/-! ### Requests -/

section Requests

/-- A request goes into the history if a conversation is going on, and then it is in order. -/
theorem Behaves.sent (h : b.Behaves assumed since stack)
    (hcheck : ∀ f, c = .check f → stack = assumed) :
    ((b.request c).2.session = true → IsLive (b.request c).2.history) ∧
      Talk assumed since (b.request c).2.history := by
  cases h.isAt with
  | quiet hquiet =>
    rw [request_of_isQuiet hquiet]
    exact ⟨h.live, h.talk⟩
  | @talking p hprover hsession hstate hstack =>
    have horder : InOrder assumed c b.history :=
      ⟨h.live hsession, fun f hf _ => hstack.trans (hcheck f hf)⟩
    rw [request_of_talking hprover hsession]
    cases p.answer b.history c with
    | ok r => exact ⟨fun _ => h.live hsession, h.talk.requested horder _⟩
    | error e => exact ⟨nofun, h.talk.requested horder _⟩

theorem Behaves.request_ok {r : ProverResponse} (h : b.Behaves assumed since stack)
    (hcheck : ∀ f, c = .check f → stack = assumed) (hr : b.request c = (.ok r, b')) :
    b'.Behaves assumed since (c.move stack) := by
  obtain ⟨hlive, htalk⟩ := h.sent hcheck
  rw [hr] at hlive htalk
  exact ⟨h.isAt.request_ok hr, hlive, htalk⟩

theorem Behaves.request_error {e : ProverError} (h : b.Behaves assumed since stack)
    (hcheck : ∀ f, c = .check f → stack = assumed) (hr : b.request c = (.error e, b'))
    (other : List String) : b'.IsQuiet ∧ b'.Behaves assumed since other := by
  obtain ⟨hlive, htalk⟩ := h.sent hcheck
  rw [hr] at hlive htalk
  have hquiet := h.isAt.request_error hr
  exact ⟨hquiet, .quiet hquiet, hlive, htalk⟩

theorem Behaves.undo {f : String} (h : b.Behaves assumed since (f :: stack)) :
    (b.request .undo).2.Behaves assumed since stack := by
  rcases hr : b.request .undo with ⟨e | r, b'⟩
  · exact (h.request_error (by rintro f ⟨⟩) hr stack).2
  · exact h.request_ok (by rintro f ⟨⟩) hr

theorem Behaves.shutdown (h : b.Behaves assumed since stack) :
    b.shutdown.Behaves assumed since [axiomPreamble] :=
  ⟨.quiet b.isQuiet_shutdown, nofun, h.talk⟩

end Requests

/-! ### Starts -/

section Starts

/-- The requests of a start are in order: the conversation is new, and its check is the trial. -/
theorem Behaves.launch (h : b.Behaves assumed since stack) (hquiet : b.IsQuiet)
    (hprover : b.prover = some p) : (b.launch p).2.Behaves assumed since [axiomPreamble] := by
  obtain ⟨-, hat, -⟩ := isAt_launch hquiet hprover
  obtain ⟨worked, now, hstartup, hlaunch⟩ := b.launch_spec p
  have hlaunched := h.talk.launched none
  have haxioms : InOrder assumed (.assume axiomPreamble) (.launched none :: b.history) :=
    ⟨rfl, by rintro f ⟨⟩⟩
  have htrial (r : ProverResponse) : InOrder assumed (.check sanityFormula)
      (.requested (.assume axiomPreamble) (.ok r) :: .launched none :: b.history) :=
    ⟨rfl, fun f hf hnot => absurd ⟨by cases hf; rfl, r, _, rfl⟩ hnot⟩
  have htried (r : ProverResponse) (reply : ProverReply) :=
    (hlaunched.requested haxioms (.ok r)).requested (htrial r) reply
  have hsilent : (b.afterStart false now).session = false := by
    rw [afterStart, hquiet.session, Bool.or_false]
  rw [hlaunch] at hat ⊢
  cases hstartup with
  | refused e => exact ⟨hat, by simp [hsilent], h.talk.launched (some e)⟩
  | broken e => exact ⟨hat, by simp [hsilent], hlaunched.requested haxioms (.error e)⟩
  | insane r v _ => exact ⟨hat, by simp [hsilent], htried r v⟩
  | usable r => exact ⟨hat, fun _ => rfl, htried r (.ok .valid)⟩

theorem Behaves.startUpTo (n : Nat) {b : Bridge} (h : b.Behaves assumed since stack)
    (hquiet : b.IsQuiet) (hprover : b.prover = some p) :
    (startUpTo p n b).2.Behaves assumed since [axiomPreamble] := by
  induction n generalizing b stack with
  | zero =>
    have hfailed : ({ b with state := .failed } : Bridge).IsQuiet := ⟨hquiet.session, by simp⟩
    exact ⟨.quiet hfailed, h.live, h.talk⟩
  | succ n ih =>
    have hlaunched := h.launch hquiet hprover
    obtain ⟨hsame, -, hfails⟩ := isAt_launch hquiet hprover
    rw [Bridge.startUpTo]
    rcases hlaunch : b.launch p with ⟨started, b₁⟩
    rw [hlaunch] at hlaunched hsame hfails
    cases started with
    | true => exact hlaunched
    | false => exact ih hlaunched (hfails rfl) (hsame.trans hprover)

theorem Behaves.ensureStarted (h : b.Behaves assumed since [axiomPreamble]) :
    b.ensureStarted.2.Behaves assumed since [axiomPreamble] := by
  unfold Bridge.ensureStarted
  split
  · exact h
  · next hstate =>
    have hquiet : b.IsQuiet := by
      cases h.isAt with
      | quiet hquiet => exact hquiet
      | talking _ _ hready => exact absurd hready hstate
    split
    · exact h
    · next p hprover => exact h.startUpTo _ hquiet hprover

end Starts

end Bridge

/-! ## A pass -/

namespace Redundancy

variable {b : Bridge} {assumed : List String} {since : List ProverEvent} {background : String}

section Pass

theorem behaves_ask (h : b.Behaves assumed since assumed) (others : String) (c : Candidate) :
    (ask b others c).2.Behaves assumed since assumed ∧
      ∀ e, (ask b others c).1 = .error e → (ask b others c).2.IsQuiet := by
  unfold ask
  rcases hfirst : b.request (.check s!"(NOT {others})") with ⟨e | v, b₁⟩
  · obtain ⟨hquiet, hends⟩ := h.request_error (fun _ _ => rfl) hfirst assumed
    exact ⟨hends, fun _ _ => hquiet⟩
  · have hgoes : b₁.Behaves assumed since assumed := h.request_ok (fun _ _ => rfl) hfirst
    cases v with
    | valid => exact ⟨hgoes, nofun⟩
    | _ =>
      dsimp only
      rcases hsecond : b₁.request (.check s!"(IMPLIES {others} {c.formula})") with ⟨e | v, b₂⟩
      · obtain ⟨hquiet, hends⟩ := hgoes.request_error (fun _ _ => rfl) hsecond assumed
        exact ⟨hends, fun _ _ => hquiet⟩
      · have hgoes' : b₂.Behaves assumed since assumed := hgoes.request_ok (fun _ _ => rfl) hsecond
        cases v <;> exact ⟨hgoes', nofun⟩

/-- A conversation that was started over has the background again. -/
theorem behaves_resume {stack : List String} (h : b.Behaves assumed since stack)
    (background : String) :
    (resume b (.assume background)).2.Behaves assumed since [background, axiomPreamble] ∧
      ((resume b (.assume background)).1 = false →
        (resume b (.assume background)).2.IsQuiet) := by
  have hrestarted := h.shutdown.ensureStarted
  obtain ⟨-, -, hquiet⟩ := b.isAt_restart
  unfold resume
  unfold Bridge.restart at hquiet ⊢
  rcases hrestart : b.shutdown.ensureStarted with ⟨started, b₁⟩
  rw [hrestart] at hrestarted hquiet
  cases started with
  | false => exact ⟨hrestarted.of_isQuiet (hquiet rfl) _, fun _ => hquiet rfl⟩
  | true =>
    dsimp only
    rcases hassume : b₁.request (.assume background) with ⟨e | v, b₂⟩
    · obtain ⟨hquiet, hends⟩ := hrestarted.request_error (by rintro f ⟨⟩) hassume
        [background, axiomPreamble]
      exact ⟨hends, fun _ => hquiet⟩
    · exact ⟨hrestarted.request_ok (by rintro f ⟨⟩) hassume, nofun⟩

/-- Every check is sent with the background and the axioms assumed, also after a restart. -/
theorem behaves_check (cs : List Candidate) {p : Progress}
    (h : p.bridge.Behaves [background, axiomPreamble] since [background, axiomPreamble]) :
    (check (.assume background) cs p).2.bridge.Behaves [background, axiomPreamble] since
        [background, axiomPreamble] ∧
      ((check (.assume background) cs p).1 = .aborted →
        (check (.assume background) cs p).2.bridge.IsQuiet) := by
  induction cs generalizing p with
  | nil => exact ⟨h, fun hended => by cases hended⟩
  | cons c earlier ih =>
    obtain ⟨hasked, hfails⟩ := behaves_ask h
      (conjunction ((earlier.reverse ++ p.kept).map Candidate.formula)) c
    rw [check]
    rcases hask : ask p.bridge (conjunction ((earlier.reverse ++ p.kept).map Candidate.formula)) c
      with ⟨e | verdict, bridge⟩ <;> rw [hask] at hasked hfails
    · have hquiet := hfails e rfl
      cases e with
      | timeout t =>
        dsimp only
        by_cases hrestarted : p.restarted
        · rw [if_pos hrestarted]
          exact ⟨hasked, fun _ => hquiet⟩
        · obtain ⟨hresumed, hover⟩ := behaves_resume hasked background
          rw [if_neg hrestarted]
          rcases hresume : resume bridge (.assume background) with ⟨resumed, bridge'⟩
          rw [hresume] at hresumed hover
          cases resumed with
          | false => exact ⟨hresumed, fun _ => hover rfl⟩
          | true => exact ih hresumed
      | _ => exact ⟨hasked, fun _ => hquiet⟩
    · cases verdict with
      | contradiction => exact ⟨hasked, fun hended => by cases hended⟩
      | implied => exact ih hasked
      | independent => exact ih hasked

/-- However a pass ends, the background is taken back or the conversation is over. -/
theorem behaves_pass (background : String) (candidates : List Candidate)
    (h : b.Behaves [background, axiomPreamble] since [axiomPreamble]) :
    (pass b background candidates).2.2.Behaves [background, axiomPreamble] since
      [axiomPreamble] := by
  unfold pass
  dsimp only
  split
  · exact h
  · have hstarted := h.ensureStarted
    rcases hstart : b.ensureStarted with ⟨started, b₁⟩
    rw [hstart] at hstarted
    cases started with
    | false => exact hstarted
    | true =>
      dsimp only
      rcases hassume : b₁.request (.assume background) with ⟨e | v, b₂⟩
      · exact (hstarted.request_error (by rintro f ⟨⟩) hassume _).2
      · have hassumed : b₂.Behaves [background, axiomPreamble] since [background, axiomPreamble] :=
          hstarted.request_ok (by rintro f ⟨⟩) hassume
        obtain ⟨hchecked, haborted⟩ :=
          behaves_check candidates.reverse (p := { bridge := b₂ }) hassumed
        dsimp only
        rcases hcheck : check (.assume background) candidates.reverse { bridge := b₂ } with
          ⟨outcome, p⟩
        rw [hcheck] at hchecked haborted
        cases outcome with
        | aborted => exact hchecked.of_isQuiet (haborted rfl) _
        | _ => exact hchecked.undo

end Pass

end Redundancy

/-! ## Sessions -/

namespace Context

variable {ctx : Context}

section Sessions

/-- A request that was sent after these events was sent in a live conversation. If it is a check and
no trial, the session was marking what is redundant at a point, and the background of that point and
the axioms were assumed. -/
structure WasInOrder (ctx : Context) (acts : List Action) (c : ProverCommand) (reply : ProverReply)
    (earlier : List ProverEvent) : Prop where
  live : IsLive earlier
  check : ∀ f, c = .check f → ¬IsTrial f earlier → ∃ before id included rest,
    acts = before ++ .markImplied id included :: rest ∧
    (ctx.after before).bridge.history <:+ earlier ∧
    .requested c reply :: earlier <:+
      (ctx.after (before ++ [.markImplied id included])).bridge.history ∧
    assumptions earlier = [(ctx.after before).background id included, axiomPreamble]

theorem WasInOrder.concat {acts : List Action} {c : ProverCommand} {reply : ProverReply}
    {earlier : List ProverEvent} (h : ctx.WasInOrder acts c reply earlier) (a : Action) :
    ctx.WasInOrder (acts ++ [a]) c reply earlier := by
  refine ⟨h.live, fun f hf htrial => ?_⟩
  obtain ⟨before, id, included, rest, rfl, hsent⟩ := h.check f hf htrial
  exact ⟨before, id, included, rest ++ [a], by simp, hsent⟩

/-- What a session leaves to its next request. -/
structure IsOrderly (ctx : Context) (acts : List Action) : Prop where
  isAt : (ctx.after acts).bridge.IsAt [axiomPreamble]
  live : (ctx.after acts).bridge.session = true → IsLive (ctx.after acts).bridge.history
  sent : ∀ c reply earlier, .requested c reply :: earlier <:+ (ctx.after acts).bridge.history →
    ctx.WasInOrder acts c reply earlier

theorem isOrderly_nil (hfresh : ctx.bridge.IsFresh) : ctx.IsOrderly [] := by
  refine ⟨.quiet hfresh.quiet, fun hsession => ?_, fun c reply earlier hsent => ?_⟩
  · have hquiet : ctx.bridge.session = false := hfresh.quiet.session
    exact absurd hsession (by simp [hquiet])
  · have hnothing : ProverEvent.requested c reply :: earlier <:+ [] := hfresh.history ▸ hsent
    exact absurd (List.suffix_nil.mp hnothing) (List.cons_ne_nil _ _)

theorem IsOrderly.concat {acts : List Action} (h : ctx.IsOrderly acts) (a : Action) :
    ctx.IsOrderly (acts ++ [a]) := by
  have hafter := ctx.after_concat acts a
  rcases (changes_perform (ctx.after acts) a).bridge with hsame | ⟨id, included, p, rfl, hpass⟩
  · have hbridge : (ctx.after (acts ++ [a])).bridge = (ctx.after acts).bridge := hafter ▸ hsame
    refine ⟨hbridge ▸ h.isAt, hbridge ▸ h.live, fun c reply earlier hsent => ?_⟩
    rw [hbridge] at hsent
    exact (h.sent c reply earlier hsent).concat a
  · have hbehaves := Redundancy.behaves_pass ((ctx.after acts).background id included)
      (p.candidates id included) ⟨h.isAt, h.live, .silent⟩
    rw [← redundancyPass, ← hpass, ← hafter] at hbehaves
    refine ⟨hbehaves.isAt, hbehaves.live, fun c reply earlier hsent => ?_⟩
    rcases hbehaves.talk.request hsent with hold | ⟨hsince, horder⟩
    · exact (h.sent c reply earlier hold).concat _
    · refine ⟨horder.live, fun f hf htrial => ?_⟩
      exact ⟨acts, id, included, [], rfl, hsince, hsent, horder.check f hf htrial⟩

/-- **Nothing is sent out of order.** In a session that begins with a fresh bridge, whatever the
prover does, a conversation that is going on between two requests of the session is live and has the
axioms as its only assumption. What was sent to the prover was sent in a live conversation, and
checks other than trials were sent under the background of the point that was being marked. -/
theorem disciplined_after (hfresh : ctx.bridge.IsFresh) (acts : List Action) :
    ((ctx.after acts).bridge.session = true → IsLive (ctx.after acts).bridge.history ∧
      assumptions (ctx.after acts).bridge.history = [axiomPreamble]) ∧
    ∀ c reply earlier, .requested c reply :: earlier <:+ (ctx.after acts).bridge.history →
      ctx.WasInOrder acts c reply earlier := by
  have horderly : ctx.IsOrderly acts := by
    induction acts using List.reverseRecOn with
    | nil => exact isOrderly_nil hfresh
    | append_singleton acts a ih => exact ih.concat a
  refine ⟨fun hsession => ⟨horderly.live hsession, ?_⟩, horderly.sent⟩
  cases horderly.isAt with
  | quiet hquiet => simp [hquiet.session] at hsession
  | talking _ _ _ hstack => exact hstack

/-- Two findings about a positive variable are checked. -/
def marking : List Action := positive ++ [.markImplied 0 fun _ => true]

/-- What happens before the second finding turns out to follow from the first. -/
def beforeImplied : List ProverEvent :=
  [.requested (.check "(NOT (AND (>= x 1)))") (.ok .invalid),
    .requested (.assume "(AND )") (.ok .ack),
    .requested (.check sanityFormula) (.ok .valid),
    .requested (.assume axiomPreamble) (.ok .ack),
    .launched none]

theorem bridge_marking : (ofPositive.after marking).bridge.session = true ∧
    (ofPositive.after marking).bridge.history =
      .requested .undo (.ok .ack) ::
      .requested (.check "(IMPLIES (AND ) (>= x 1))") (.ok .invalid) ::
      .requested (.check "(NOT (AND ))") (.ok .invalid) ::
      .requested (.check "(IMPLIES (AND (>= x 1)) (NEQ x 0))") (.ok .valid) :: beforeImplied := by
  have hbackground : (ofPositive.after positive).background 0 (fun _ => true) = "(AND )" := by
    decide +kernel
  rw [marking, after_concat, perform, exec_discard, exec_markImplied_some points_positive,
    redundancyPass, candidates_positive, hbackground]
  exact ⟨rfl, rfl⟩

/-- The conversation stays with the axioms alone, and the check that found the second candidate
implied was sent under the background of its point. -/
theorem disciplined_after_marking :
    ofPositive.bridge.IsFresh ∧
      assumptions (ofPositive.after marking).bridge.history = [axiomPreamble] ∧
      assumptions beforeImplied = ["(AND )", axiomPreamble] ∧
      ofPositive.WasInOrder marking (.check "(IMPLIES (AND (>= x 1)) (NEQ x 0))") (.ok .valid)
        beforeImplied := by
  have hfresh : ofPositive.bridge.IsFresh := Bridge.isFresh_new _ _
  obtain ⟨hsession, hhistory⟩ := bridge_marking
  obtain ⟨hbetween, hsent⟩ := disciplined_after hfresh marking
  refine ⟨hfresh, (hbetween hsession).2, rfl, hsent _ _ _ ?_⟩
  rw [hhistory]
  exact ⟨[_, _, _], rfl⟩

end Sessions

end Context

end LikelyInvariants
