import LikelyInvariants.Proofs.Redundancy.Transcript

/-!
# How long a flag lasts

Passes add flags and never take one back. A pass that checks every candidate therefore says the truth
about a candidate unless a flag is there that it did not set: one that an earlier pass left, or one
that it set for another candidate of the same mark (`flagged_markImplied`). A flag outlives the
invariants that were its reason.
-/

namespace LikelyInvariants

namespace Context

open Redundancy Update

section Flags

/-- Every candidate of these turns has a flag exactly if it was found implied. -/
def FlagsTell (q : Point) (turns : List Turn) : Prop :=
  ∀ t ∈ turns, t.candidate.mark ∈ q.redundant ↔ t.isImplied = true

/-- After a pass that checked every candidate of a point, a candidate has a flag if it had one
before or a candidate of the same mark was found implied. So the flags say what was found if and
only if no candidate that was not found implied had a flag or shares its mark with one that was. -/
theorem flagged_markImplied {ctx ctx' : Context} {id : Nat} {p : Point} {included : Finding → Bool}
    {report : RedundancyReport} (hp : ctx.points[id]? = some p)
    (hexec : (markImplied id included).exec ctx = (.ok report, ctx'))
    (hcompleted : report.outcome = .completed) :
    ∃ q turns restarts, ctx'.points[id]? = some q ∧
      IsRecord (p.candidates id included) .completed turns restarts ctx.bridge ctx'.bridge ∧
      (∀ t ∈ turns, t.candidate.mark ∈ q.redundant ↔ t.candidate.mark ∈ p.redundant ∨
        ∃ u ∈ turns, u.isImplied = true ∧ u.candidate.mark = t.candidate.mark) ∧
      (FlagsTell q turns ↔ ∀ t ∈ turns, t.isImplied = false → t.candidate.mark ∉ p.redundant ∧
        ∀ u ∈ turns, u.isImplied = true → u.candidate.mark ≠ t.candidate.mark) := by
  obtain ⟨outcome, turns, restarts, bridge, hturns, hrecord⟩ := exec_markImplied_turns hp included
  obtain ⟨hreport, rfl⟩ := Prod.mk.inj (hexec.symm.trans hturns)
  obtain rfl := Except.ok.inj hreport
  obtain rfl : outcome = .completed := hcompleted
  have hflags (m : Redundant) : m ∈ (p.mark (marks .completed turns)).redundant ↔
      m ∈ p.redundant ∨ ∃ u ∈ turns, u.isImplied = true ∧ u.candidate.mark = m := by
    rw [← mem_impliedIn]
    exact Point.mem_mark
  refine ⟨_, turns, restarts, List.getElem?_set_self (lt_of_point hp), hrecord,
    fun t _ => hflags _, fun htell t ht hstays => ⟨fun hold => ?_, fun u hu himplied hsame => ?_⟩,
    fun hfresh t ht => ⟨fun hflag => ?_, fun himplied => ?_⟩⟩
  · have hfound := (htell t ht).mp ((hflags _).mpr (.inl hold))
    simp [hstays] at hfound
  · have hfound := (htell t ht).mp ((hflags _).mpr (.inr ⟨u, hu, himplied, hsame⟩))
    simp [hstays] at hfound
  · by_contra hnot
    obtain ⟨hunflagged, hunshared⟩ := hfresh t ht (Bool.eq_false_iff.mpr hnot)
    rcases (hflags _).mp hflag with hold | ⟨u, hu, himplied, hsame⟩
    · exact hunflagged hold
    · exact hunshared u hu himplied hsame
  · exact (hflags _).mpr (.inr ⟨t, ht, himplied, rfl⟩)

end Flags

/-! ## A bound that is overtaken -/

section Overtaken

/-- A positive variable is found not to be zero, which follows from its lower bound; then it is
negative three times. -/
def overtaken : List Action := marking ++ [.add 0 ⟨[some ⟨.int (-5), true⟩]⟩ 3]

/-- The point after that. The new bound does not entail that the variable is not zero. -/
def overtakenPoint : Point :=
  { positivePoint with
    slices :=
      [{ key := [0]
         entries := [⟨0, .bound ⟨.lower, some (-5), 3, 6⟩⟩, ⟨1, .nonZero ⟨false, 6⟩⟩]
         samples := 6 }]
    samples := 6
    redundant := [notZero.mark] }

/-- The candidate for the new bound. -/
def atLeastMinusFive : Candidate where
  mark := .term (.invariant 0 0)
  rank := { kind := "LowerBound", names := ["x"], detail := "-5" }
  formula := "(>= x -5)"

theorem after_marking : ofPositive.after marking =
    { ofPositive.after positive with
      points := [positivePoint.mark [notZero]]
      bridge := (pass (ofPositive.after positive).bridge "(AND )" [atLeastOne, notZero]).2.2 } := by
  have hbackground : (ofPositive.after positive).background 0 (fun _ => true) = "(AND )" := by
    decide +kernel
  have hpoints : (ofPositive.after positive).points = [positivePoint] := by decide +kernel
  have hmarked : (pass (ofPositive.after positive).bridge "(AND )" [atLeastOne, notZero]).2.1 =
      [notZero] := by
    decide +kernel
  rw [marking, after_concat, perform, exec_discard, exec_markImplied_some points_positive,
    redundancyPass, candidates_positive, hbackground]
  dsimp only
  rw [hmarked, hpoints]
  rfl

theorem points_overtaken : (ofPositive.after overtaken).points[0]? = some overtakenPoint := by
  rw [overtaken, after_concat, after_marking]
  decide +kernel

theorem candidates_overtaken :
    overtakenPoint.candidates 0 (fun _ => true) = [atLeastMinusFive, notZero] := by
  unfold Point.candidates
  rw [List.mergeSort_of_pairwise (by decide +kernel)]
  decide +kernel

theorem bridge_overtaken : (ofPositive.after overtaken).bridge =
    (pass (ofPositive.after positive).bridge "(AND )" [atLeastOne, notZero]).2.2 := by
  have hmarking : (ofPositive.after marking).bridge =
      (pass (ofPositive.after positive).bridge "(AND )" [atLeastOne, notZero]).2.2 := by
    rw [after_marking]
  rw [overtaken, after_concat, ← hmarking]
  rcases (changes_perform (ofPositive.after marking) (.add 0 ⟨[some ⟨.int (-5), true⟩]⟩ 3)).bridge
    with hsame | ⟨_, _, _, hmark, _⟩
  · exact hsame
  · cases hmark

theorem exec_markImplied_overtaken : ∃ ctx',
    (markImplied 0 fun _ => true).exec (ofPositive.after overtaken) =
      (.ok { examined := 2, redundant := 0, outcome := .completed }, ctx') := by
  have hbackground : (ofPositive.after overtaken).background 0 (fun _ => true) = "(AND )" := by
    rw [overtaken, after_concat, after_marking]
    decide +kernel
  refine ⟨_, Prod.ext ?_ rfl⟩
  rw [exec_markImplied_some points_overtaken, redundancyPass, candidates_overtaken, hbackground,
    bridge_overtaken]
  decide +kernel

/-- The lower bound that entailed that the variable is not zero is gone, the pass checks both
candidates and finds neither implied, and yet one of them has a flag. -/
theorem flag_outlives_reason : ∃ report ctx' q turns restarts,
    (markImplied 0 fun _ => true).exec (ofPositive.after overtaken) = (.ok report, ctx') ∧
    report.outcome = .completed ∧ report.redundant = 0 ∧ ctx'.points[0]? = some q ∧
    IsRecord [atLeastMinusFive, notZero] .completed turns restarts
      (ofPositive.after overtaken).bridge ctx'.bridge ∧
    ∃ t ∈ turns, t.candidate = notZero ∧ t.isImplied = false ∧ t.candidate.mark ∈ q.redundant := by
  obtain ⟨ctx', hexec⟩ := exec_markImplied_overtaken
  obtain ⟨outcome, turns, restarts, bridge, hturns, hrecord⟩ :=
    exec_markImplied_turns points_overtaken fun _ => true
  obtain ⟨hreport, rfl⟩ := Prod.mk.inj (hexec.symm.trans hturns)
  obtain ⟨-, hnone, rfl⟩ := RedundancyReport.mk.inj (Except.ok.inj hreport)
  rw [candidates_overtaken] at hrecord
  have himplied : ∀ t ∈ turns, t.isImplied = false := by
    have hlength : (turns.filter Turn.isImplied).length = 0 := by
      simpa [marks, impliedIn] using hnone.symm
    have hempty : turns.filter Turn.isImplied = [] := List.length_eq_zero_iff.mp hlength
    simpa using hempty
  have htaken : turns.map Turn.candidate = [notZero, atLeastMinusFive] := hrecord.completed rfl
  obtain ⟨t, ht, hcandidate⟩ : ∃ t ∈ turns, t.candidate = notZero := by
    rw [← List.mem_map, htaken]
    exact List.mem_cons_self
  have hold : notZero.mark ∈ overtakenPoint.redundant := List.mem_cons_self
  refine ⟨_, _, _, turns, restarts, hexec, rfl, rfl,
    List.getElem?_set_self (lt_of_point points_overtaken), hrecord,
    t, ht, hcandidate, himplied t ht, ?_⟩
  rw [hcandidate]
  exact Point.mem_mark.mpr (.inl hold)

/-- The flag is an old one. -/
theorem flagged_markImplied_overtaken : ∃ report ctx' q turns restarts,
    (ofPositive.after overtaken).points[0]? = some overtakenPoint ∧
    (markImplied 0 fun _ => true).exec (ofPositive.after overtaken) = (.ok report, ctx') ∧
    report.outcome = .completed ∧ ctx'.points[0]? = some q ∧
    IsRecord [atLeastMinusFive, notZero] .completed turns restarts
      (ofPositive.after overtaken).bridge ctx'.bridge ∧
    ∀ t ∈ turns, t.candidate.mark ∈ q.redundant ↔ t.candidate.mark ∈ overtakenPoint.redundant ∨
      ∃ u ∈ turns, u.isImplied = true ∧ u.candidate.mark = t.candidate.mark := by
  obtain ⟨ctx', hexec⟩ := exec_markImplied_overtaken
  obtain ⟨q, turns, restarts, hq, hrecord, hflags, -⟩ :=
    flagged_markImplied points_overtaken hexec rfl
  rw [candidates_overtaken] at hrecord
  exact ⟨_, ctx', q, turns, restarts, points_overtaken, hexec, rfl, hq, hrecord, hflags⟩

end Overtaken

end Context

end LikelyInvariants
