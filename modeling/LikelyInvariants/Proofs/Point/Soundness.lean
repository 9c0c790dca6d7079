import LikelyInvariants.Proofs.Invariant.Meaning
import LikelyInvariants.Proofs.Point.Batch

/-!
# What a point reports is true

Every invariant of a point whose views were opened once, and into whose slices nothing was put by
hand, has come from a fresh candidate by the tuples of all samples the point took
(`Point.Traces`). So its formula, as the last sample left it, is true of all of them, and its
constants were seen in them (`Context.sound_after`). Slices that were opened or closed by hand in
between do no harm: the former have no invariants, the latter are gone.

The proviso about NaNs is about the values of a tuple, constants included. A constant that is a
NaN has a value in every tuple, and differs from itself (`Context.nan_constant_unsound`).
-/

namespace LikelyInvariants

namespace Point

/-- Every invariant has come from a candidate by the tuples of all samples, each of which the point
selects. -/
structure Traces (q before : Point) (scope : Scope) (log : List (Sample × Nat)) : Prop where
  catalog : q.catalog = before.catalog
  isOpen : q.viewsOpen = true
  entries : ∀ s ∈ q.slices, ∀ e ∈ s.entries, ∃ inv ∈ scope.candidates before 0 s.key,
    inv.addAll? (before.catalog.tuples s.key log) = some e.inv
  selects : ∀ x ∈ log, q.selects x.1

namespace Traces

variable {q r before : Point} {scope : Scope} {log : List (Sample × Nat)}

theorem still (h : q.Traces before scope log) (k : Still q r) : r.Traces before scope log where
  catalog := (k.catalog h.isOpen).trans h.catalog
  isOpen := k.viewsOpen.trans h.isOpen
  entries := by
    rw [k.slices]
    exact h.entries
  selects x hx := by
    have hsame : r.selects x.1 = q.selects x.1 := by
      simp only [Point.selects, k.kind, k.catalog h.isOpen]
    rw [hsame]
    exact h.selects x hx

/-- Slices without invariants may come, and slices may go. -/
theorem slices (h : q.Traces before scope log) {slices : List Slice}
    (hslices : ∀ s ∈ slices, s ∈ q.slices ∨ s.entries = []) :
    { q with slices : Point }.Traces before scope log where
  catalog := h.catalog
  isOpen := h.isOpen
  entries s hs e he := by
    rcases hslices s hs with hs | hnone
    · exact h.entries s hs e he
    · simp [hnone] at he
  selects := h.selects

theorem feed (h : q.Traces before scope log) {x : Sample × Nat} (hselects : q.selects x.1) :
    (q.feed x.1 x.2).Traces before scope (log ++ [x]) where
  catalog := h.catalog
  isOpen := h.isOpen
  entries s' hs' e' he' := by
    obtain ⟨s, hs, rfl⟩ := List.mem_map.mp (List.mem_filter.mp hs').1
    split at he'
    · next hempty => simp [List.isEmpty_iff.mp hempty] at he'
    · next hne =>
      rw [if_neg hne, Slice.add_key]
      cases hproject : q.catalog.project? s.key x.1 with
      | none =>
        rw [s.add_of_none hproject] at he'
        obtain ⟨inv, hcandidate, hinv⟩ := h.entries s hs e' he'
        refine ⟨inv, hcandidate, ?_⟩
        rw [h.catalog] at hproject
        simpa [Catalog.tuples, hproject] using hinv
      | some t =>
        rw [s.add_of_some hproject] at he'
        obtain ⟨e, he, hadd⟩ := List.mem_filterMap.mp he'
        obtain ⟨inv', hinv', rfl⟩ := Option.map_eq_some_iff.mp hadd
        obtain ⟨inv, hcandidate, hinv⟩ := h.entries s hs e he
        refine ⟨inv, hcandidate, ?_⟩
        rw [h.catalog] at hproject
        have hlast : before.catalog.tuples s.key (log ++ [x]) =
            before.catalog.tuples s.key log ++ [(t, x.2)] := by
          simp [Catalog.tuples, hproject]
        have hkept : e.inv.addAll? [(t, x.2)] = some inv' := by
          simp [Invariant.addAll?_cons, hinv']
        simpa [hlast, Invariant.addAll?_append, hinv] using hkept
  selects y hy := by
    rcases List.mem_append.mp hy with hy | hy
    · exact h.selects y hy
    · rw [List.mem_singleton.mp hy]
      exact hselects

end Traces

/-- Slices opened by hand have no invariants before the views are open. -/
theorem Steps.entries_eq_nil {p q : Point} {hs : List Happening} (hfresh : p.IsFresh)
    (h : p.Steps hs q) (hnone : hs.filter Happening.fills = []) :
    ∀ s ∈ q.slices, s.entries = [] := by
  induction h with
  | start => simp [hfresh.slices]
  | still _ k ih =>
    rw [k.slices]
    exact ih hnone
  | step _ k ih =>
    rw [List.filter_append, List.append_eq_nil_iff] at hnone
    have ih := ih hnone.1
    cases k with
    | opened => simp [Happening.fills] at hnone
    | took => simp [Happening.fills] at hnone
    | filled => simp [Happening.fills] at hnone
    | sliceOpened h =>
      obtain rfl | ⟨key, rfl⟩ := openSlice_ok h
      · exact ih
      · intro s hs
        rcases mem_insertSlice.mp hs with rfl | hs
        · rfl
        · exact ih s hs
    | sliceRemoved h =>
      obtain ⟨key, rfl⟩ := removeSlice_ok h
      exact fun s hs => ih s (List.mem_filter.mp hs).1

/-- A point whose views were opened once and into whose slices nothing was put by hand. -/
theorem Steps.traces {p q before : Point} {scope : Scope} {hs : List Happening}
    (hfresh : p.IsFresh) (h : p.Steps hs q) {log : List (Sample × Nat)}
    (hlife : hs.filter Happening.fills =
      .opened before scope 0 :: log.map Happening.ofSample) : q.Traces before scope log := by
  induction h generalizing log with
  | start => cases hlife
  | still _ k ih => exact (ih hlife).still k
  | @step hs h q r hsteps k ih =>
    rw [List.filter_append] at hlife
    by_cases hfills : h.fills
    · rw [List.filter_cons_of_pos hfills, List.filter_nil] at hlife
      rcases snoc_eq_cons_map hlife with ⟨hnone, rfl, rfl⟩ | ⟨log', x, rfl, hlife', rfl⟩
      · cases k with
        | opened hopen =>
          obtain ⟨rfl, -, pending, hpending, rfl⟩ := openViews_ok hopen
          refine ⟨by simp, rfl, fun s hs e he => ?_, by simp⟩
          rcases mem_openAll hs with hs | ⟨⟨⟨key, invs⟩, hmem, hnew⟩, -⟩
          · simp [hsteps.entries_eq_nil hfresh hnone s hs] at he
          · obtain ⟨rfl, -⟩ := (mem_pendingViews hpending).mp hmem
            have hcandidate : e.inv ∈ s.entries.map SliceEntry.inv := List.mem_map_of_mem he
            rw [hnew.entries] at hcandidate
            exact ⟨e.inv, by rwa [hnew.key], rfl⟩
      · cases k with
        | took _ hselects => exact (ih hlife').feed hselects
    · rw [List.filter_cons_of_neg hfills, List.filter_nil, List.append_nil] at hlife
      have ih := ih hlife
      cases k with
      | opened => simp [Happening.fills] at hfills
      | took => simp [Happening.fills] at hfills
      | filled => simp [Happening.fills] at hfills
      | sliceOpened h =>
        obtain rfl | ⟨key, rfl⟩ := openSlice_ok h
        · exact ih
        · refine ih.slices fun s hs => ?_
          rcases mem_insertSlice.mp hs with rfl | hs
          · exact .inr rfl
          · exact .inl hs
      | sliceRemoved h =>
        obtain ⟨key, rfl⟩ := removeSlice_ok h
        exact ih.slices fun s hs => .inl (List.mem_filter.mp hs).1

namespace Traces

variable {q before : Point} {scope : Scope} {log : List (Sample × Nat)}

/-- Every formula is true of the samples that have all its variables and no NaN among them. -/
theorem holds (h : q.Traces before scope log) {s : Slice} (hs : s ∈ q.slices) {e : SliceEntry}
    (he : e ∈ s.entries) {x : Sample × Nat} (hx : x ∈ log) {t : Tuple}
    (ht : q.catalog.project? s.key x.1 = some t) (hnan : ∀ v ∈ t.values, v.hasNaN = false) :
    e.inv.Holds t.values := by
  obtain ⟨inv, -, hinv⟩ := h.entries s hs e he
  rw [h.catalog] at ht
  have hmem : (t, x.2) ∈ before.catalog.tuples s.key log := Catalog.mem_tuples.mpr ⟨x.1, hx, ht⟩
  exact (Invariant.holds_addAll? hinv).1 _ hmem hnan

/-- Every constant of a formula was seen. -/
theorem seen (h : q.Traces before scope log) (hmake : scope.factories.MakeFresh) {s : Slice}
    (hs : s ∈ q.slices) {e : SliceEntry} (he : e ∈ s.entries) {w : Value}
    (hw : w ∈ e.inv.tracked) :
    ∃ x ∈ log, ∃ t, q.catalog.project? s.key x.1 = some t ∧ w ∈ e.inv.kind.seen t.values := by
  obtain ⟨inv, hcandidate, hinv⟩ := h.entries s hs e he
  rcases Invariant.mem_tracked_addAll? hinv hw with ⟨x, hx, hseen⟩ | hw
  · obtain ⟨s', hs', ht⟩ := Catalog.mem_tuples.mp hx
    exact ⟨(s', x.2), hs', x.1, by rw [h.catalog]; exact ht, hseen⟩
  · simp [(Scope.isFresh_of_mem_candidates hmake hcandidate).tracked] at hw

end Traces

end Point

/-! ## Sessions -/

/-- **What a point reports is true of the samples it took.** After every session in which its views
were opened once, over its whole catalog, with fresh candidates, and nothing was put into its slices
by hand, the formula of each of its invariants is true of every sample that has all the variables,
none of them being a NaN, and the constants of the formula were seen in the samples. -/
theorem Context.sound_after {ctx : Context} (hempty : ctx.points = []) {acts : List Action}
    {id : Nat} {q : Point} (hq : (ctx.after acts).points[id]? = some q) {before : Point}
    {scope : Scope} {log : List (Sample × Nat)}
    (hlife : (ctx.happenings acts id).filter Happening.fills =
      .opened before scope 0 :: log.map Happening.ofSample)
    (hmake : scope.factories.MakeFresh) {s : Slice} (hs : s ∈ q.slices) {e : SliceEntry}
    (he : e ∈ s.entries) :
    (∀ x ∈ log, ∀ t, q.catalog.project? s.key x.1 = some t →
      (∀ v ∈ t.values, v.hasNaN = false) → e.inv.Holds t.values) ∧
    ∀ w ∈ e.inv.tracked, ∃ x ∈ log, ∃ t, q.catalog.project? s.key x.1 = some t ∧
      w ∈ e.inv.kind.seen t.values := by
  obtain ⟨p, hfresh, hsteps⟩ := steps_after hempty acts hq
  have htraces := hsteps.traces hfresh hlife
  exact ⟨fun x hx t ht hnan => htraces.holds hs he hx ht hnan,
    fun w hw => htraces.seen hmake hs he hw⟩

/-- Two samples at a point of one variable. -/
theorem Context.sound_after_two_samples :
    let vars : List Declaration := [{ name := "x", type := .int }]
    let log : List (Sample × Nat) := [(⟨[some ⟨.int 3, true⟩]⟩, 2), (⟨[some ⟨.int 5, true⟩]⟩, 1)]
    let acts : List Action :=
      .addPoint "P" vars :: .openViews 0 0 1 :: log.map fun x => .add 0 x.1 x.2
    ∃ q : Point, (standard.after acts).points[0]? = some q ∧ q.slices.length = 1 ∧
      ∀ s ∈ q.slices, ∀ e ∈ s.entries,
        (∀ x ∈ log, ∀ t, q.catalog.project? s.key x.1 = some t →
          (∀ v ∈ t.values, v.hasNaN = false) → e.inv.Holds t.values) ∧
        ∀ w ∈ e.inv.tracked, ∃ x ∈ log, ∃ t, q.catalog.project? s.key x.1 = some t ∧
          w ∈ e.inv.kind.seen t.values := by
  intro vars log acts
  have hlife : (standard.happenings acts 0).filter Happening.fills =
      .opened (.ofVariables "P" vars) standard.scope 0 :: log.map Happening.ofSample := by
    unfold acts log vars
    rfl
  obtain ⟨q, hq, hlength⟩ : ∃ q : Point, (standard.after acts).points[0]? = some q ∧
      q.slices.length = 1 := by
    unfold acts log vars
    exact ⟨_, rfl, rfl⟩
  exact ⟨q, hq, hlength, fun s hs e he =>
    sound_after rfl hq hlife (Factories.makeFresh_ofKinds Kind.all) hs he⟩

/-- A constant that is a NaN makes a formula false although no sample has a NaN. -/
theorem Context.nan_constant_unsound :
    let nan : Value := .float ⟨0x7ff8000000000000⟩
    let vars : List Declaration := [{ name := "K", type := .float, constant := some nan }]
    let acts : List Action := [.addPoint "P" vars, .add 0 ⟨[]⟩ 1]
    ∃ (q : Point) (s : Slice) (e : SliceEntry) (t : Tuple),
      (standard.after acts).points[0]? = some q ∧
      standard.happenings acts 0 =
        [.opened (.ofVariables "P" vars) standard.scope 0, .took ⟨[]⟩ 1] ∧
      s ∈ q.slices ∧ e ∈ s.entries ∧ q.catalog.project? s.key ⟨[]⟩ = some t ∧
      ¬e.inv.Holds t.values := by
  dsimp only
  refine ⟨_, _, _, _, rfl, rfl, List.mem_cons_self, List.mem_cons_self, rfl, ?_⟩
  rintro ⟨v, rest, hv, hamong⟩
  cases hv
  exact absurd hamong (by decide)

end LikelyInvariants
