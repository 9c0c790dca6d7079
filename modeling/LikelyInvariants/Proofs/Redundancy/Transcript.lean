import LikelyInvariants.Proofs.Redundancy.Discipline

/-!
# What a pass asks, and what it marks

A pass takes the candidates in turns, from the last to the first. In a turn it asks whether the other
candidates that are still there contradict each other and, if they do not, whether they imply the
candidate; a candidate that they imply is gone from then on (`InTurn`). Between the checks it may
start the conversation over. The checks that reach the prover, in their order, are the ones of the
turns (`Bridge.Asks`), so a turn says what was asked about its candidate and what the prover
answered, and it is the turns that decide what is marked.
-/

namespace LikelyInvariants

open Update

/-! ## Checks -/

namespace Bridge

variable {b b₁ b₂ b₃ : Bridge} {asked asked' : List (String × ProverReply)}
  {restarts restarts' : Nat}

/-- Requests and restarts lead from one bridge to another. The checks among them were answered like
this, and there were so many restarts. -/
inductive Asks : Bridge → List (String × ProverReply) → Nat → Bridge → Prop
  | done (b : Bridge) : Asks b [] 0 b
  | check {b b₁ b' : Bridge} {reply : ProverReply} {asked : List (String × ProverReply)}
    {restarts : Nat} (f : String) (h : b.request (.check f) = (reply, b₁))
    (k : Asks b₁ asked restarts b') : Asks b ((f, reply) :: asked) restarts b'
  | other {b b₁ b' : Bridge} {c : ProverCommand} {reply : ProverReply}
    {asked : List (String × ProverReply)} {restarts : Nat} (hc : ∀ f, c ≠ .check f)
    (h : b.request c = (reply, b₁)) (k : Asks b₁ asked restarts b') : Asks b asked restarts b'
  | restart {b b₁ b' : Bridge} {started : Bool} {asked : List (String × ProverReply)}
    {restarts : Nat} (h : b.restart = (started, b₁)) (k : Asks b₁ asked restarts b') :
    Asks b asked (restarts + 1) b'

theorem Asks.trans {b₁ b₂ b₃ : Bridge} {asked asked' : List (String × ProverReply)}
    {restarts restarts' : Nat} (k : b₁.Asks asked restarts b₂) (k' : b₂.Asks asked' restarts' b₃) :
    b₁.Asks (asked ++ asked') (restarts + restarts') b₃ := by
  induction k with
  | done b =>
    rw [List.nil_append, Nat.zero_add]
    exact k'
  | check f h _ ih => exact .check f h (ih k')
  | other hc h _ ih => exact .other hc h (ih k')
  | restart h _ ih =>
    rw [Nat.add_right_comm]
    exact .restart h (ih k')

end Bridge

namespace Redundancy

open Bridge

/-! ## Turns -/

section Turns

/-- What was asked about a candidate. -/
structure Turn where
  candidate : Candidate
  /-- The other candidates that were still there. -/
  others : List Candidate
  /-- Whether they contradict each other. -/
  contradiction : ProverReply
  /-- Whether they imply the candidate, if that was asked. -/
  implication : Option ProverReply

/-- The checks that are made in a turn, with their answers. -/
def Turn.checks (t : Turn) : List (String × ProverReply) :=
  let others := conjunction (t.others.map Candidate.formula)
  (s!"(NOT {others})", t.contradiction) ::
    (t.implication.map fun reply => (s!"(IMPLIES {others} {t.candidate.formula})", reply)).toList

/-- The candidate was found implied by the others. -/
def Turn.isImplied (t : Turn) : Bool :=
  match t.implication with
  | some (.ok .valid) => true
  | _ => false

/-- The candidates that were found implied in some turns. -/
def impliedIn (turns : List Turn) : List Candidate :=
  (turns.filter Turn.isImplied).map Turn.candidate

/-- The candidates that are left are taken in turn. The others are those that come later in the list
and those that were kept. -/
inductive InTurn : List Candidate → List Candidate → List Turn → Prop
  | ended (left kept : List Candidate) : InTurn left kept []
  | implied {left kept : List Candidate} {turns : List Turn} (t : Turn)
    (himplied : t.isImplied = true) (hothers : t.others = left.reverse ++ kept)
    (k : InTurn left kept turns) : InTurn (t.candidate :: left) kept (t :: turns)
  | stays {left kept : List Candidate} {turns : List Turn} (t : Turn)
    (hstays : t.isImplied = false) (hothers : t.others = left.reverse ++ kept)
    (k : InTurn left (t.candidate :: kept) turns) : InTurn (t.candidate :: left) kept (t :: turns)

theorem InTurn.isPrefix {left kept : List Candidate} {turns : List Turn}
    (k : InTurn left kept turns) : turns.map Turn.candidate <+: left := by
  induction k with
  | ended left kept => exact List.nil_prefix
  | implied t _ _ _ ih => exact (List.prefix_cons_inj _).mpr ih
  | stays t _ _ _ ih => exact (List.prefix_cons_inj _).mpr ih

theorem InTurn.length_implied_le {left kept : List Candidate} {turns : List Turn}
    (k : InTurn left kept turns) : (impliedIn turns).length ≤ left.length := by
  have htaken : (turns.map Turn.candidate).length ≤ left.length := k.isPrefix.length_le
  have himplied : (turns.filter Turn.isImplied).length ≤ turns.length := List.length_filter_le _ _
  rw [List.length_map] at htaken
  rw [impliedIn, List.length_map]
  omega

theorem ask_turn (b : Bridge) (others : List Candidate) (c : Candidate) : ∃ t : Turn,
    t.candidate = c ∧ t.others = others ∧
    b.Asks t.checks 0 (ask b (conjunction (others.map Candidate.formula)) c).2 ∧
    (t.isImplied = true ↔
      (ask b (conjunction (others.map Candidate.formula)) c).1 = .ok .implied) := by
  unfold ask
  rcases hfirst : b.request (.check s!"(NOT {conjunction (others.map Candidate.formula)})")
    with ⟨e | v, b₁⟩
  · exact ⟨⟨c, others, .error e, none⟩, rfl, rfl, .check _ hfirst (.done _),
      iff_of_false nofun nofun⟩
  · cases v with
    | valid =>
      exact ⟨⟨c, others, .ok .valid, none⟩, rfl, rfl, .check _ hfirst (.done _),
        iff_of_false nofun nofun⟩
    | _ =>
      dsimp only
      rcases hsecond : b₁.request
        (.check s!"(IMPLIES {conjunction (others.map Candidate.formula)} {c.formula})")
        with ⟨e | w, b₂⟩
      · exact ⟨⟨c, others, _, some (.error e)⟩, rfl, rfl,
          .check _ hfirst (.check _ hsecond (.done _)), iff_of_false nofun nofun⟩
      · have hasked := Asks.check _ hfirst (.check _ hsecond (.done _))
        cases w with
        | valid =>
          exact ⟨⟨c, others, _, some (.ok .valid)⟩, rfl, rfl, hasked, iff_of_true rfl rfl⟩
        | _ => exact ⟨⟨c, others, _, some (.ok _)⟩, rfl, rfl, hasked, iff_of_false nofun nofun⟩

end Turns

/-! ## A pass -/

section Pass

/-- What a round over the candidates that are left asks, and what becomes of them. -/
structure IsRound (cs : List Candidate) (p : Progress) (result : Outcome × Progress)
    (turns : List Turn) (restarts : Nat) : Prop where
  inTurn : InTurn cs p.kept turns
  asked : p.bridge.Asks (turns.flatMap Turn.checks) restarts result.2.bridge
  restarts : restarts ≤ if p.restarted then 0 else 1
  marked : result.2.marked = (impliedIn turns).reverse ++ p.marked
  outcome : result.1 ∈ [.completed, .contradictory, .aborted]
  completed : result.1 = .completed → turns.map Turn.candidate = cs

theorem resume_asks (b : Bridge) (background : String) :
    b.Asks [] 1 (resume b (.assume background)).2 := by
  have hassumes (f : String) : ProverCommand.assume background ≠ .check f := by simp
  unfold resume
  rcases hrestart : b.restart with ⟨started, b₁⟩
  cases started with
  | false => exact .restart hrestart (.done _)
  | true =>
    dsimp only
    rcases hassume : b₁.request (.assume background) with ⟨e | v, b₂⟩
    · exact .restart hrestart (.other hassumes hassume (.done _))
    · exact .restart hrestart (.other hassumes hassume (.done _))

variable {earlier : List Candidate} {p p' : Progress} {t : Turn} {turns : List Turn}
  {result : Outcome × Progress} {restarts restarts' : Nat}

/-- A round may end with this turn. -/
theorem IsRound.last (hothers : t.others = earlier.reverse ++ p.kept)
    (hstays : t.isImplied = false) (hasked : p.bridge.Asks t.checks restarts result.2.bridge)
    (hrestarts : restarts ≤ if p.restarted then 0 else 1) (hmarked : result.2.marked = p.marked)
    (houtcome : result.1 ∈ [.contradictory, .aborted]) :
    IsRound (t.candidate :: earlier) p result [t] restarts where
  inTurn := .stays t hstays hothers (.ended _ _)
  asked := by
    rw [List.flatMap_singleton]
    exact hasked
  restarts := hrestarts
  marked := by simp [hmarked, impliedIn, hstays]
  outcome := List.mem_cons_of_mem _ houtcome
  completed h := by simp [h] at houtcome

/-- A round goes on after this turn if the candidate is implied. -/
theorem IsRound.mark {bridge : Bridge} (hothers : t.others = earlier.reverse ++ p.kept)
    (himplied : t.isImplied = true) (hasked : p.bridge.Asks t.checks 0 bridge)
    (k : IsRound earlier { p with marked := t.candidate :: p.marked, bridge } result turns
      restarts) : IsRound (t.candidate :: earlier) p result (t :: turns) restarts where
  inTurn := .implied t himplied hothers k.inTurn
  asked := by
    rw [List.flatMap_cons, ← Nat.zero_add restarts]
    exact hasked.trans k.asked
  restarts := k.restarts
  marked := by simp [k.marked, impliedIn, himplied]
  outcome := k.outcome
  completed h := by rw [List.map_cons, k.completed h]

/-- It goes on after this turn as well if the candidate stays. -/
theorem IsRound.keep {bridge : Bridge} {restarted : Bool}
    (hothers : t.others = earlier.reverse ++ p.kept) (hstays : t.isImplied = false)
    (hasked : p.bridge.Asks t.checks restarts bridge)
    (hrestarts : restarts + restarts' ≤ if p.restarted then 0 else 1)
    (k : IsRound earlier { p with kept := t.candidate :: p.kept, restarted, bridge } result turns
      restarts') :
    IsRound (t.candidate :: earlier) p result (t :: turns) (restarts + restarts') where
  inTurn := .stays t hstays hothers k.inTurn
  asked := by
    rw [List.flatMap_cons]
    exact hasked.trans k.asked
  restarts := hrestarts
  marked := by simp [k.marked, impliedIn, hstays]
  outcome := k.outcome
  completed h := by rw [List.map_cons, k.completed h]

theorem check_round (background : String) (cs : List Candidate) (p : Progress) :
    ∃ turns restarts, IsRound cs p (check (.assume background) cs p) turns restarts := by
  induction cs generalizing p with
  | nil => exact ⟨[], 0, .ended _ _, .done _, Nat.zero_le _, rfl, List.mem_cons_self, fun _ => rfl⟩
  | cons c earlier ih =>
    obtain ⟨t, rfl, hothers, hasked, himplied⟩ := ask_turn p.bridge (earlier.reverse ++ p.kept) c
    rw [check]
    rcases hask : ask p.bridge (conjunction ((earlier.reverse ++ p.kept).map Candidate.formula))
      t.candidate with ⟨e | verdict, bridge⟩ <;> rw [hask] at hasked himplied
    · have hstays : t.isImplied = false :=
        Bool.eq_false_iff.mpr fun h => by cases himplied.mp h
      have hfails : IsRound (t.candidate :: earlier) p (.aborted, { p with bridge }) [t] 0 :=
        .last hothers hstays hasked (Nat.zero_le _) rfl (by simp)
      cases e with
      | timeout ms =>
        dsimp only
        by_cases hrestarted : p.restarted = true
        · rw [if_pos hrestarted]
          exact ⟨_, _, hfails⟩
        · have honce : 1 ≤ if p.restarted then 0 else 1 := by simp [hrestarted]
          rw [if_neg hrestarted]
          have hresumed := hasked.trans (resume_asks bridge background)
          rw [List.append_nil] at hresumed
          rcases hresume : resume bridge (.assume background) with ⟨resumed, bridge'⟩
          rw [hresume] at hresumed
          cases resumed with
          | false => exact ⟨_, _, .last hothers hstays hresumed honce rfl (by simp)⟩
          | true =>
            obtain ⟨turns, restarts, k⟩ :=
              ih { p with kept := t.candidate :: p.kept, restarted := true, bridge := bridge' }
            have hnone : restarts = 0 := Nat.le_zero.mp k.restarts
            subst hnone
            exact ⟨_, _, .keep hothers hstays hresumed honce k⟩
      | _ => exact ⟨_, _, hfails⟩
    · cases verdict with
      | contradiction =>
        have hstays : t.isImplied = false :=
          Bool.eq_false_iff.mpr fun h => by cases himplied.mp h
        exact ⟨_, _, .last hothers hstays hasked (Nat.zero_le _) rfl (by simp)⟩
      | implied =>
        obtain ⟨turns, restarts, k⟩ := ih { p with marked := t.candidate :: p.marked, bridge }
        exact ⟨_, _, k.mark hothers (himplied.mpr rfl) hasked⟩
      | independent =>
        have hstays : t.isImplied = false :=
          Bool.eq_false_iff.mpr fun h => by cases himplied.mp h
        obtain ⟨turns, restarts, k⟩ := ih { p with kept := t.candidate :: p.kept, bridge }
        refine ⟨_, _, k.keep hothers hstays hasked ?_⟩
        rw [Nat.zero_add]
        exact k.restarts

/-- What a pass over some candidates asks: nothing at all, or after the conversation was started the
checks of some turns. -/
structure IsRecord (candidates : List Candidate) (outcome : Outcome) (turns : List Turn)
    (restarts : Nat) (b b' : Bridge) : Prop where
  inTurn : InTurn candidates.reverse [] turns
  asked : (turns = [] ∧ restarts = 0 ∧ b' = b) ∨
    b.ensureStarted.2.Asks (turns.flatMap Turn.checks) restarts b'
  restarts : restarts ≤ 1
  completed : outcome = .completed → turns.map Turn.candidate = candidates.reverse

/-- The candidates that a pass with this outcome and these turns marks. -/
def marks (outcome : Outcome) (turns : List Turn) : List Candidate :=
  match outcome with
  | .completed | .aborted => (impliedIn turns).reverse
  | .nothingToCheck | .proverUnavailable | .contradictory => []

theorem length_marks_le {left kept : List Candidate} (k : InTurn left kept turns)
    (outcome : Outcome) : (marks outcome turns).length ≤ left.length := by
  have himplied := k.length_implied_le
  unfold marks
  cases outcome <;> simp [himplied]

theorem pass_record (b : Bridge) (background : String) (candidates : List Candidate) :
    ∃ turns restarts, IsRecord candidates (pass b background candidates).1 turns restarts b
        (pass b background candidates).2.2 ∧
      (pass b background candidates).2.1 = marks (pass b background candidates).1 turns := by
  have hassumes (f : String) : ProverCommand.assume background ≠ .check f := by simp
  have hundoes (f : String) : ProverCommand.undo ≠ .check f := by simp
  unfold pass
  dsimp only
  split
  · exact ⟨[], 0, ⟨.ended _ _, .inl ⟨rfl, rfl, rfl⟩, Nat.zero_le _, nofun⟩, rfl⟩
  · rcases hstart : b.ensureStarted with ⟨started, b₁⟩
    have hstarted : b.ensureStarted.2 = b₁ := congrArg Prod.snd hstart
    cases started with
    | false =>
      have hasked : b.ensureStarted.2.Asks [] 0 b₁ := hstarted ▸ .done _
      exact ⟨[], 0, ⟨.ended _ _, .inr hasked, Nat.zero_le _, nofun⟩, rfl⟩
    | true =>
      dsimp only
      rcases hassume : b₁.request (.assume background) with ⟨e | v, b₂⟩
      · have hasked : b.ensureStarted.2.Asks [] 0 b₂ := hstarted ▸ .other hassumes hassume (.done _)
        exact ⟨[], 0, ⟨.ended _ _, .inr hasked, Nat.zero_le _, nofun⟩, rfl⟩
      · obtain ⟨turns, restarts, k⟩ := check_round background candidates.reverse { bridge := b₂ }
        dsimp only
        rcases hcheck : check (.assume background) candidates.reverse { bridge := b₂ } with
          ⟨outcome, p⟩
        rw [hcheck] at k
        have hmarked : p.marked = (impliedIn turns).reverse := by
          rw [k.marked]
          exact List.append_nil _
        have hasked : b.ensureStarted.2.Asks (turns.flatMap Turn.checks) restarts p.bridge :=
          hstarted ▸ .other hassumes hassume k.asked
        have hundone : b.ensureStarted.2.Asks (turns.flatMap Turn.checks) restarts
            (p.bridge.request .undo).2 := by
          have hall := hasked.trans (.other hundoes rfl (.done _))
          rwa [List.append_nil] at hall
        cases outcome with
        | aborted => exact ⟨turns, restarts, ⟨k.inTurn, .inr hasked, k.restarts, nofun⟩, hmarked⟩
        | contradictory =>
          exact ⟨turns, restarts, ⟨k.inTurn, .inr hundone, k.restarts, nofun⟩, rfl⟩
        | completed =>
          exact ⟨turns, restarts, ⟨k.inTurn, .inr hundone, k.restarts, k.completed⟩, hmarked⟩
        | _ => exact absurd k.outcome (by simp)

end Pass

end Redundancy

/-! ## Marks -/

section Marks

theorem TermSource.eq_of_compare {s t : TermSource} (h : s.compare t = .eq) : s = t := by
  cases s <;> cases t <;> simp_all [TermSource.compare, Ordering.then_eq_eq]

theorem Redundant.eq_of_compare {m n : Redundant} (h : m.compare n = .eq) : m = n := by
  cases m with
  | term s =>
    cases n with
    | term t => rw [TermSource.eq_of_compare h]
    | _ => cases h
  | leader v =>
    cases n with
    | leader w => rw [Std.LawfulEqOrd.compare_eq_iff_eq.mp h]
    | _ => cases h
  | implication p c =>
    cases n with
    | implication q d =>
      obtain ⟨hp, hc⟩ := Ordering.then_eq_eq.mp h
      rw [TermSource.eq_of_compare hp, TermSource.eq_of_compare hc]
    | _ => cases h

theorem mem_insertMark {m n : Redundant} {ms : List Redundant} :
    n ∈ insertMark m ms ↔ n ∈ ms ∨ m = n := by
  induction ms with
  | nil => simp [insertMark, eq_comm]
  | cons m' ms ih =>
    rw [insertMark]
    split
    · simp [eq_comm, or_comm]
    · next heq =>
      have hsame := Redundant.eq_of_compare heq
      constructor
      · exact .inl
      · rintro (hold | rfl)
        · exact hold
        · exact hsame ▸ List.mem_cons_self
    · rw [List.mem_cons, List.mem_cons, ih, or_assoc]

/-- Marks are added, and none is taken back. -/
theorem Point.mem_mark {p : Point} {marked : List Candidate} {m : Redundant} :
    m ∈ (p.mark marked).redundant ↔ m ∈ p.redundant ∨ ∃ c ∈ marked, c.mark = m := by
  unfold Point.mark
  dsimp only
  generalize p.redundant = ms
  induction marked generalizing ms with
  | nil => simp
  | cons c marked ih =>
    simp only [List.foldl_cons, ih, mem_insertMark, or_assoc, List.mem_cons, exists_eq_or_imp]

end Marks

namespace Context

open Redundancy

section Containment

/-- Marking what is redundant never fails, and it touches the marks of its point and the bridge. Its
turns say what becomes of the candidates. -/
theorem exec_markImplied_turns {ctx : Context} {id : Nat} {p : Point}
    (hp : ctx.points[id]? = some p) (included : Finding → Bool) :
    ∃ outcome turns restarts bridge, (markImplied id included).exec ctx =
      (.ok { examined := (p.candidates id included).length
             redundant := (marks outcome turns).length
             outcome },
        { ctx with points := ctx.points.set id (p.mark (marks outcome turns)), bridge }) ∧
      IsRecord (p.candidates id included) outcome turns restarts ctx.bridge bridge := by
  obtain ⟨turns, restarts, hrecord, hmarked⟩ :=
    pass_record ctx.bridge (ctx.background id included) (p.candidates id included)
  refine ⟨_, turns, restarts, _, ?_, hrecord⟩
  rw [exec_markImplied_some hp, redundancyPass, ← hmarked]

theorem mem_impliedIn {turns : List Turn} {m : Redundant} :
    (∃ c ∈ (impliedIn turns).reverse, c.mark = m) ↔
      ∃ t ∈ turns, t.isImplied = true ∧ t.candidate.mark = m := by
  simp [impliedIn, and_assoc]

/-- **A prover that fails does no harm.** Whatever the prover does, marking what is redundant at a
point that exists gives a report, and besides the bridge only the marks of that point change. If the
candidates were not checked or contradict each other, no mark is added. Otherwise the marks that are
added are those of the candidates that were found implied in their turns, and the report tells how
many they are. The prover is restarted at most once. -/
theorem contained_markImplied {ctx : Context} {id : Nat} {p : Point}
    (hp : ctx.points[id]? = some p) (included : Finding → Bool) :
    ∃ report redundant turns restarts bridge,
      (markImplied id included).exec ctx = (.ok report,
        { ctx with points := ctx.points.set id { p with redundant }, bridge }) ∧
      IsRecord (p.candidates id included) report.outcome turns restarts ctx.bridge bridge ∧
      (report.outcome ∈ [.nothingToCheck, .proverUnavailable, .contradictory] →
        redundant = p.redundant ∧ report.redundant = 0) ∧
      (report.outcome ∈ [.completed, .aborted] →
        (∀ m, m ∈ redundant ↔
          m ∈ p.redundant ∨ ∃ t ∈ turns, t.isImplied = true ∧ t.candidate.mark = m) ∧
        report.redundant = (turns.filter Turn.isImplied).length) ∧
      report.examined = (p.candidates id included).length ∧
      report.redundant ≤ report.examined := by
  obtain ⟨outcome, turns, restarts, bridge, hexec, hrecord⟩ := exec_markImplied_turns hp included
  have hmost := length_marks_le hrecord.inTurn outcome
  rw [List.length_reverse] at hmost
  refine ⟨_, _, turns, restarts, bridge, hexec, hrecord, fun hnone => ?_, fun hmarks => ?_, rfl,
    hmost⟩
  · cases outcome with
    | completed => simp at hnone
    | aborted => simp at hnone
    | _ => exact ⟨rfl, rfl⟩
  · have himplied : marks outcome turns = (impliedIn turns).reverse := by
      cases outcome with
      | completed => rfl
      | aborted => rfl
      | _ => simp at hmarks
    dsimp only
    rw [himplied]
    refine ⟨fun m => ?_, ?_⟩
    · rw [← mem_impliedIn]
      exact Point.mem_mark
    · rw [List.length_reverse, impliedIn, List.length_map]

/-- A prover that knows that what is at least one is not zero, and takes too long when there is
nothing to contradict. -/
def tiring : Prover where
  launch _ := none
  answer
    | _, .assume _ | _, .undo => .ok .ack
    | _, .check f =>
      if f = "(NOT (AND ))" then .error (.timeout 5)
      else .ok (if f ∈ positiveTheorems then .valid else .invalid)

/-- It can be started once. -/
def ofTiring : Context := { ofPositive with bridge := .new tiring 1 }

/-- The first candidate is found implied, the second check takes too long, and there is no start
left. What was found implied stays marked. -/
theorem contained_markImplied_tiring : ∃ redundant turns restarts bridge,
    (markImplied 0 fun _ => true).exec (ofTiring.after positive) =
      (.ok { examined := 2, redundant := 1, outcome := .aborted },
        { ofTiring.after positive with points := [{ positivePoint with redundant }], bridge }) ∧
    IsRecord [atLeastOne, notZero] .aborted turns restarts ofTiring.bridge bridge ∧
    (notZero.mark ∈ redundant ↔
      notZero.mark ∈ positivePoint.redundant ∨
        ∃ t ∈ turns, t.isImplied = true ∧ t.candidate.mark = notZero.mark) := by
  have hpoints : (ofTiring.after positive).points = [positivePoint] := by decide +kernel
  have hp : (ofTiring.after positive).points[0]? = some positivePoint := by
    rw [hpoints]
    rfl
  have hbackground : (ofTiring.after positive).background 0 (fun _ => true) = "(AND )" := by
    decide +kernel
  obtain ⟨report, redundant, turns, restarts, bridge, hexec, hrecord, -, hmarked, -⟩ :=
    contained_markImplied hp fun _ => true
  have hreport : report = { examined := 2, redundant := 1, outcome := .aborted } := by
    have hsame := congrArg Prod.fst hexec
    rw [exec_markImplied_some hp, redundancyPass, candidates_positive, hbackground] at hsame
    injection hsame with hsame
    rw [← hsame]
    decide +kernel
  rw [candidates_positive] at hrecord
  rw [hpoints] at hexec
  subst hreport
  exact ⟨redundant, turns, restarts, bridge, hexec, hrecord, (hmarked (by simp)).1 _⟩

end Containment

end Context

end LikelyInvariants
