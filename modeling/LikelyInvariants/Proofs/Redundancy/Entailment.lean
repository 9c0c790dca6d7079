import LikelyInvariants.Proofs.Family
import LikelyInvariants.Proofs.Prover.Conversation

/-!
# What is marked follows from what is not

A pass goes through the candidates from the last to the first. At every moment the candidates that
were not checked yet and those that stay entail the marked ones, given the axioms and the background
(`Redundancy.Progress.IsSound`). A check that finds its candidate implied keeps this up: what it
follows from is not marked, and what was marked follows from that and the candidate together. So it
does not matter where a pass ends.

For this the stack of assumptions must be the right one at every check. A pass begins and ends with
the axioms alone, or without a conversation, and nothing else that a session does talks to the
prover (`Context.isIdle_after`).
-/

namespace LikelyInvariants

open Update

/-! ## One candidate -/

namespace Redundancy

variable {r : Interpretation} {b : Bridge} {stack : List String}

section Asking

/-- Asking about a candidate leaves the stack as it is. A candidate that is found implied follows
from the others. -/
theorem ask_spec (h : b.IsAt stack) (hsound : ∀ p, b.prover = some p → p.IsSound r)
    (others : String) (c : Candidate) :
    (ask b others c).2.prover = b.prover ∧ (ask b others c).2.IsAt stack ∧
      (∀ e, (ask b others c).1 = .error e → (ask b others c).2.IsQuiet) ∧
      ((ask b others c).1 = .ok .implied →
        r.Entails stack s!"(IMPLIES {others} {c.formula})") := by
  have hprover := b.prover_request (.check s!"(NOT {others})")
  unfold ask
  rcases hfirst : b.request (.check s!"(NOT {others})") with ⟨e | v, b₁⟩ <;> rw [hfirst] at hprover
  · have hquiet := h.request_error hfirst
    exact ⟨hprover, .quiet hquiet, fun _ _ => hquiet, nofun⟩
  · have hat : b₁.IsAt stack := h.request_ok hfirst
    cases v with
    | valid =>
      dsimp only
      exact ⟨hprover, hat, nofun, nofun⟩
    | _ =>
      have hprover' := b₁.prover_request (.check s!"(IMPLIES {others} {c.formula})")
      dsimp only
      rcases hsecond : b₁.request (.check s!"(IMPLIES {others} {c.formula})") with ⟨e | v, b₂⟩ <;>
        rw [hsecond] at hprover'
      · have hquiet := hat.request_error hsecond
        exact ⟨hprover'.trans hprover, .quiet hquiet, fun _ _ => hquiet, nofun⟩
      · have hat' : b₂.IsAt stack := hat.request_ok hsecond
        cases v with
        | valid =>
          dsimp only
          refine ⟨hprover'.trans hprover, hat', nofun, fun _ => ?_⟩
          exact hat.entails (fun p hp => hsound p (hprover.symm.trans hp)) hsecond
        | _ =>
          dsimp only
          exact ⟨hprover'.trans hprover, hat', nofun, nofun⟩

/-- After a conversation was started over, the axioms and the background are assumed. -/
theorem resume_spec (b : Bridge) (background : String) :
    (resume b (.assume background)).2.prover = b.prover ∧
      ((resume b (.assume background)).1 = true →
        (resume b (.assume background)).2.IsAt [background, axiomPreamble]) ∧
      ((resume b (.assume background)).1 = false →
        (resume b (.assume background)).2.IsQuiet) := by
  obtain ⟨hprover, hat, hquiet⟩ := b.isAt_restart
  unfold resume
  rcases hrestart : b.restart with ⟨started, b₁⟩
  rw [hrestart] at hprover hat hquiet
  cases started with
  | false => exact ⟨hprover, nofun, fun _ => hquiet rfl⟩
  | true =>
    have hprover' := b₁.prover_request (.assume background)
    simp only
    rcases hassume : b₁.request (.assume background) with ⟨e | v, b₂⟩ <;> rw [hassume] at hprover'
    · exact ⟨hprover'.trans hprover, nofun, fun _ => hat.request_error hassume⟩
    · exact ⟨hprover'.trans hprover, fun _ => hat.request_ok hassume, nofun⟩

end Asking

/-! ## A pass -/

section Pass

/-- All candidates of a list are true in a situation. -/
def AllTrue (r : Interpretation) (w : r.Situation) (cs : List Candidate) : Prop :=
  ∀ c ∈ cs, r.IsTrue w c.formula

/-- Some candidates may be marked: the axioms, the background and the other candidates entail
them. -/
def IsJustified (r : Interpretation) (background : String) (candidates marked : List Candidate) :
    Prop :=
  ∃ kept, (kept ++ marked).Perm candidates ∧
    ∀ w : r.Situation, r.IsTrue w axiomPreamble → r.IsTrue w background → AllTrue r w kept →
      AllTrue r w marked

theorem isJustified_nil (background : String) (candidates : List Candidate) :
    IsJustified r background candidates [] :=
  ⟨candidates, by rw [List.append_nil], fun _ _ _ _ => List.forall_mem_nil _⟩

/-- Given the assumptions, the candidates that are left to check and those that stay entail those
that are marked. -/
structure Progress.IsSound (p : Progress) (r : Interpretation) (assumed : List String)
    (left : List Candidate) : Prop where
  isAt : p.bridge.IsAt assumed
  prover : ∀ q, p.bridge.prover = some q → q.IsSound r
  entails : ∀ w : r.Situation, (∀ f ∈ assumed, r.IsTrue w f) → AllTrue r w left →
    AllTrue r w p.kept → AllTrue r w p.marked

/-- A candidate that follows from the others can be marked. -/
theorem Progress.IsSound.mark {p : Progress} {assumed : List String} {c : Candidate}
    {left : List Candidate} {bridge : Bridge} (h : p.IsSound r assumed (c :: left))
    (hat : bridge.IsAt assumed) (hprover : bridge.prover = p.bridge.prover)
    (himplied : r.Entails assumed
      s!"(IMPLIES {conjunction ((left.reverse ++ p.kept).map Candidate.formula)} {c.formula})") :
    { p with marked := c :: p.marked, bridge : Progress }.IsSound r assumed left where
  isAt := hat
  prover q hq := h.prover q (hprover.symm.trans hq)
  entails w hassumed hleft hkept := by
    have hothers : r.IsTrue w (conjunction ((left.reverse ++ p.kept).map Candidate.formula)) := by
      refine r.conj w _ fun f hf => ?_
      obtain ⟨d, hd, rfl⟩ := List.mem_map.mp hf
      rcases List.mem_append.mp hd with hd | hd
      · exact hleft d (List.mem_reverse.mp hd)
      · exact hkept d hd
    have hc : r.IsTrue w c.formula := r.imp w _ _ (himplied w hassumed) hothers
    intro d hd
    rcases List.mem_cons.mp hd with rfl | hd
    · exact hc
    · refine h.entails w hassumed (fun e he => ?_) hkept d hd
      rcases List.mem_cons.mp he with rfl | he
      · exact hc
      · exact hleft e he

/-- A candidate may stay. -/
theorem Progress.IsSound.keep {p : Progress} {assumed : List String} {c : Candidate}
    {left : List Candidate} {bridge : Bridge} (h : p.IsSound r assumed (c :: left))
    (restarted : Bool) (hat : bridge.IsAt assumed) (hprover : bridge.prover = p.bridge.prover) :
    { p with kept := c :: p.kept, restarted, bridge : Progress }.IsSound r assumed left where
  isAt := hat
  prover q hq := h.prover q (hprover.symm.trans hq)
  entails w hassumed hleft hkept := by
    refine h.entails w hassumed (fun d hd => ?_) fun d hd => hkept d (List.mem_cons_of_mem c hd)
    rcases List.mem_cons.mp hd with rfl | hd
    · exact hkept d List.mem_cons_self
    · exact hleft d hd

/-- The pass may end here. -/
theorem Progress.IsSound.stop {p : Progress} {assumed : List String} {left : List Candidate}
    {bridge : Bridge} {restarted : Bool} (h : p.IsSound r assumed left)
    (hat : bridge.IsAt assumed) (hprover : bridge.prover = p.bridge.prover) :
    { p with restarted, bridge : Progress }.IsSound r assumed left where
  isAt := hat
  prover q hq := h.prover q (hprover.symm.trans hq)
  entails := h.entails

theorem Progress.IsSound.isJustified {p : Progress} {background : String}
    {left candidates : List Candidate} (h : p.IsSound r [background, axiomPreamble] left)
    (hperm : (left ++ p.kept ++ p.marked).Perm candidates) :
    IsJustified r background candidates p.marked := by
  refine ⟨left ++ p.kept, hperm, fun w haxioms hbackground hkept => ?_⟩
  have hassumed : ∀ f ∈ [background, axiomPreamble], r.IsTrue w f := by simp [haxioms, hbackground]
  exact h.entails w hassumed (fun c hc => hkept c (List.mem_append_left _ hc))
    fun c hc => hkept c (List.mem_append_right _ hc)

/-- Wherever a pass over the candidates that are left ends, what is not marked entails what is. -/
theorem check_spec (background : String) (cs : List Candidate) {p : Progress}
    (h : p.IsSound r [background, axiomPreamble] cs) :
    ∃ left, (check (.assume background) cs p).2.IsSound r [background, axiomPreamble] left ∧
      (left ++ (check (.assume background) cs p).2.kept ++
        (check (.assume background) cs p).2.marked).Perm (cs ++ p.kept ++ p.marked) ∧
      (check (.assume background) cs p).2.bridge.prover = p.bridge.prover ∧
      ((check (.assume background) cs p).1 = .aborted →
        (check (.assume background) cs p).2.bridge.IsQuiet) := by
  induction cs generalizing p with
  | nil => exact ⟨[], h, .refl _, rfl, nofun⟩
  | cons c earlier ih =>
    obtain ⟨hprover, hat, hquiet, himplied⟩ := ask_spec h.isAt h.prover
      (conjunction ((earlier.reverse ++ p.kept).map Candidate.formula)) c
    have hstays : (earlier ++ c :: p.kept ++ p.marked).Perm (c :: earlier ++ p.kept ++ p.marked) :=
      List.perm_middle.append_right p.marked
    rw [check]
    rcases hask : ask p.bridge (conjunction ((earlier.reverse ++ p.kept).map Candidate.formula)) c
      with ⟨e | verdict, bridge⟩ <;> rw [hask] at hprover hat hquiet himplied
    · cases e with
      | timeout t =>
        dsimp only
        obtain ⟨hresumed, hgoes, hfails⟩ := resume_spec bridge background
        split
        · exact ⟨_, h.stop (.quiet (hquiet _ rfl)) hprover, .refl _, hprover, fun _ => hquiet _ rfl⟩
        · rcases hresume : resume bridge (.assume background) with ⟨resumed, bridge'⟩
          rw [hresume] at hresumed hgoes hfails
          cases resumed with
          | false =>
            exact ⟨_, h.stop (.quiet (hfails rfl)) (hresumed.trans hprover), .refl _,
              hresumed.trans hprover, fun _ => hfails rfl⟩
          | true =>
            obtain ⟨left, hsound, hperm, hsame, haborted⟩ :=
              ih (h.keep true (hgoes rfl) (hresumed.trans hprover))
            exact ⟨left, hsound, hperm.trans hstays, hsame.trans (hresumed.trans hprover), haborted⟩
      | _ =>
        exact ⟨_, h.stop (.quiet (hquiet _ rfl)) hprover, .refl _, hprover, fun _ => hquiet _ rfl⟩
    · cases verdict with
      | contradiction => exact ⟨_, h.stop hat hprover, .refl _, hprover, nofun⟩
      | implied =>
        obtain ⟨left, hsound, hperm, hsame, haborted⟩ := ih (h.mark hat hprover (himplied rfl))
        refine ⟨left, hsound, hperm.trans ?_, hsame.trans hprover, haborted⟩
        exact List.perm_middle
      | independent =>
        obtain ⟨left, hsound, hperm, hsame, haborted⟩ := ih (h.keep p.restarted hat hprover)
        exact ⟨left, hsound, hperm.trans hstays, hsame.trans hprover, haborted⟩

/-- A pass that begins with the axioms alone, or without a conversation, ends so, and what it does
not mark entails what it marks. -/
theorem pass_spec (h : b.IsAt [axiomPreamble]) (hsound : ∀ p, b.prover = some p → p.IsSound r)
    (background : String) (candidates : List Candidate) :
    (pass b background candidates).2.2.IsAt [axiomPreamble] ∧
      (pass b background candidates).2.2.prover = b.prover ∧
      IsJustified r background candidates (pass b background candidates).2.1 := by
  unfold pass
  dsimp only
  split
  · exact ⟨h, rfl, isJustified_nil _ _⟩
  · obtain ⟨hprover, hat, -⟩ := h.ensureStarted
    rcases hstart : b.ensureStarted with ⟨started, b₁⟩
    rw [hstart] at hprover hat
    cases started with
    | false => exact ⟨hat, hprover, isJustified_nil _ _⟩
    | true =>
      have hprover' := b₁.prover_request (.assume background)
      dsimp only
      rcases hassume : b₁.request (.assume background) with ⟨e | v, b₂⟩ <;> rw [hassume] at hprover'
      · exact ⟨.quiet (hat.request_error hassume), hprover'.trans hprover, isJustified_nil _ _⟩
      · have hassumed : b₂.prover = b.prover := hprover'.trans hprover
        have hbegin : ({ bridge := b₂ } : Progress).IsSound r [background, axiomPreamble]
            candidates.reverse :=
          ⟨hat.request_ok hassume, fun q hq => hsound q (hassumed.symm.trans hq),
            fun _ _ _ _ => List.forall_mem_nil _⟩
        obtain ⟨left, hend, hperm, hsame, haborted⟩ := check_spec background _ hbegin
        dsimp only
        rcases hcheck : check (.assume background) candidates.reverse { bridge := b₂ } with
          ⟨outcome, p⟩
        rw [hcheck] at hend hperm hsame haborted
        have hchecked : p.bridge.prover = b.prover := hsame.trans hassumed
        have hundone := (p.bridge.prover_request .undo).trans hchecked
        have hmarked : IsJustified r background candidates p.marked :=
          hend.isJustified (hperm.trans (by simp))
        cases outcome with
        | aborted => exact ⟨.quiet (haborted rfl), hchecked, hmarked⟩
        | contradictory => exact ⟨hend.isAt.undo, hundone, isJustified_nil _ _⟩
        | _ => exact ⟨hend.isAt.undo, hundone, hmarked⟩

end Pass

end Redundancy

/-! ## Sessions -/

namespace Context

variable {ctx ctx' : Context}

section Sessions

theorem GrowsAt.bridge {id : Nat} {α : Type} {r : Except Error α} (k : ctx.GrowsAt id (r, ctx')) :
    ctx'.bridge = ctx.bridge := by
  cases k <;> rfl

theorem bridge_split (id : Nat) (splitters : List Splitter) :
    Keeps (fun ctx ctx' : Context => ctx'.bridge = ctx.bridge) (split id splitters) := by
  have hrefl (ctx : Context) : ctx.bridge = ctx.bridge := rfl
  have htrans (a b c : Context) (h : b.bridge = a.bridge) (k : c.bridge = b.bridge) :
      c.bridge = a.bridge := k.trans h
  have hchild (s : Splitter) (polarity : Bool) :
      Keeps (fun ctx ctx' : Context => ctx'.bridge = ctx.bridge) (addChild id s polarity) := by
    intro ctx
    rcases addChild_cases id s polarity ctx with ⟨e, hfail⟩ | ⟨p, ctx', -, -, hadd, hadds⟩
    · rw [hfail]
    · rw [hadd]
      exact hadds.bridge
  exact keeps_split hrefl htrans hchild splitters

/-- A request leaves the bridge alone or makes a pass over the candidates of a point. -/
theorem Changes.bridge {R : Point → Point → Prop} {a : Action} (k : Changes R ctx a ctx') :
    ctx'.bridge = ctx.bridge ∨ ∃ id included p, a = .markImplied id included ∧
      ctx'.bridge = (ctx.redundancyPass id p included).2.2 := by
  cases k with
  | moved k => exact .inl k.bridge
  | grown k => exact .inl k.bridge
  | added vars hfree => exact .inl rfl
  | split id splitters => exact .inl (bridge_split id splitters ctx)
  | contrasted ha hp => exact .inl rfl
  | marked ha hp => exact .inr ⟨_, _, _, ha, rfl⟩

variable {r : Interpretation}

/-- Between requests nothing but the axioms is assumed. -/
theorem isIdle_after (hidle : ctx.bridge.IsAt [axiomPreamble])
    (hsound : ∀ q, ctx.bridge.prover = some q → q.IsSound r) (acts : List Action) :
    (ctx.after acts).bridge.IsAt [axiomPreamble] ∧
      ∀ q, (ctx.after acts).bridge.prover = some q → q.IsSound r := by
  refine after_induction (P := fun ctx => ctx.bridge.IsAt [axiomPreamble] ∧
    ∀ q, ctx.bridge.prover = some q → q.IsSound r) (fun ctx a h => ?_) ⟨hidle, hsound⟩ acts
  obtain ⟨hidle, hsound⟩ := h
  rcases (changes_perform ctx a).bridge with hsame | ⟨id, included, p, -, hpass⟩
  · rw [hsame]
    exact ⟨hidle, hsound⟩
  · obtain ⟨hend, hprover, -⟩ := Redundancy.pass_spec hidle hsound (ctx.background id included)
      (p.candidates id included)
    rw [hpass, redundancyPass, hprover]
    exact ⟨hend, hsound⟩

/-- **Marking what is redundant loses nothing**, whatever the prover does, as long as it finds valid
only what its assumptions entail: in every session the axioms, the background and the candidates
that are not marked entail the marked ones. -/
theorem unmarked_entail_marked_after (hidle : ctx.bridge.IsAt [axiomPreamble])
    (hsound : ∀ q, ctx.bridge.prover = some q → q.IsSound r) (acts : List Action) {id : Nat}
    {p : Point} (hp : (ctx.after acts).points[id]? = some p) (included : Finding → Bool) :
    ∃ report ctx' marked,
      (markImplied id included).exec (ctx.after acts) = (.ok report, ctx') ∧
      ctx'.points[id]? = some (p.mark marked) ∧ report.redundant = marked.length ∧
      Redundancy.IsJustified r ((ctx.after acts).background id included)
        (p.candidates id included) marked := by
  obtain ⟨hidle, hsound⟩ := isIdle_after hidle hsound acts
  obtain ⟨-, -, hmarked⟩ := Redundancy.pass_spec hidle hsound
    ((ctx.after acts).background id included) (p.candidates id included)
  refine ⟨_, _, _, exec_markImplied_some hp included, ?_, rfl, hmarked⟩
  exact List.getElem?_set_self (lt_of_point hp)

end Sessions

/-! ## A lower bound -/

section LowerBound

/-- What is valid about a positive number. -/
def positiveTheorems : List String := [sanityFormula, "(IMPLIES (AND (>= x 1)) (NEQ x 0))"]

/-- A context that looks for lower bounds and for what is not zero, with a prover. -/
def ofPositive : Context :=
  { Context.standard with
    factories := .ofKinds [.bound .lower, .nonZero]
    bridge := .new (.knowing positiveTheorems) 1 }

/-- A variable has a positive value three times. -/
def positive : List Action :=
  [.addPoint "P" [{ name := "x", type := .int }], .add 0 ⟨[some ⟨.int 1, true⟩]⟩ 3]

/-- The point after that. -/
def positivePoint : Point where
  name := "P"
  catalog := .ofList [{ name := "x", type := .int }]
  slices :=
    [{ key := [0]
       entries := [⟨0, .bound ⟨.lower, some 1, 3, 3⟩⟩, ⟨1, .nonZero ⟨false, 3⟩⟩]
       samples := 3 }]
  samples := 3
  viewsOpen := true
  nextId := 2

theorem points_positive : (ofPositive.after positive).points[0]? = some positivePoint := by
  decide +kernel

/-- The candidate for the lower bound. -/
def atLeastOne : Candidate where
  mark := .term (.invariant 0 0)
  rank := { kind := "LowerBound", names := ["x"], detail := "1" }
  formula := "(>= x 1)"

def notZero : Candidate where
  mark := .term (.invariant 0 1)
  rank := { kind := "NonZero", names := ["x"], detail := "" }
  formula := "(NEQ x 0)"

theorem candidates_positive :
    positivePoint.candidates 0 (fun _ => true) = [atLeastOne, notZero] := by
  unfold Point.candidates
  rw [List.mergeSort_of_pairwise (by decide +kernel)]
  decide +kernel

/-- The lower bound stays and entails that the variable is not zero. -/
theorem unmarked_entail_marked_after_positive :
    ∃ report ctx' marked,
      (markImplied 0 fun _ => true).exec (ofPositive.after positive) = (.ok report, ctx') ∧
      ctx'.points[0]? = some (positivePoint.mark marked) ∧ report.redundant = 1 ∧
      Redundancy.IsJustified (.ofTheorems positiveTheorems) "(AND )" [atLeastOne, notZero]
        marked := by
  have hsound (q : Prover) (hq : ofPositive.bridge.prover = some q) :
      q.IsSound (.ofTheorems positiveTheorems) := by
    cases hq
    exact Prover.isSound_knowing positiveTheorems
  obtain ⟨report, ctx', marked, hexec, hp, hreport, hjustified⟩ := unmarked_entail_marked_after
    (.quiet (Bridge.isQuiet_new _ _)) hsound positive points_positive fun _ => true
  rw [candidates_positive] at hjustified
  have hbackground : (ofPositive.after positive).background 0 (fun _ => true) = "(AND )" := by
    decide +kernel
  rw [hbackground] at hjustified
  refine ⟨report, ctx', marked, hexec, hp, ?_, hjustified⟩
  rw [exec_markImplied_some points_positive, redundancyPass, candidates_positive, hbackground]
    at hexec
  cases hexec
  decide +kernel

end LowerBound

end Context

end LikelyInvariants
