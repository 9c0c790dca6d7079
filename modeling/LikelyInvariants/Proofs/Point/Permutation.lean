import LikelyInvariants.Proofs.Invariant.Permutation
import LikelyInvariants.Proofs.Point.Batch
import LikelyInvariants.Proofs.Point.Taking

/-!
# Samples in any order

A point whose views were opened once and that took samples since has the slices that were opened
then, fed with all samples, without those that are empty (`Point.Steps.slices_fed`). What a slice
makes of samples does not depend on their order, if they have values of the types of its variables
and no line is looked for (`Slice.addAll_perm`). So neither do the slices of the point: the same
invariants survive under the same numbers, with the same constants and the same counters
(`Context.slices_perm_after`).
-/

namespace LikelyInvariants

/-! ## Samples of values of the right types -/

section Typed

variable {c : Catalog} {s : Sample} {key : List Nat} {t : Tuple}

/-- All that a sample says about the variables, and about the constants among them, is of their
types. -/
def Catalog.IsTyped (c : Catalog) (s : Sample) : Prop :=
  ∀ i < c.size, ∀ v ∈ c.var? i, ∀ r ∈ c.reading? s i, v.type.accepts r.value

instance (c : Catalog) (s : Sample) : Decidable (c.IsTyped s) :=
  inferInstanceAs (Decidable (∀ i < c.size, ∀ v ∈ c.var? i, ∀ r ∈ c.reading? s i,
    v.type.accepts r.value))

theorem Catalog.exists_var_of_reading? {i : Nat} {r : Reading} (h : c.reading? s i = some r) :
    ∃ v, c.var? i = some v := by
  obtain ⟨v, hv, -⟩ := Option.bind_eq_some_iff.mp h
  exact ⟨v, hv⟩

/-- The tuples at a key have the types of its variables. -/
theorem Catalog.IsTyped.hasTypes (h : c.IsTyped s) (ht : c.project? key s = some t) :
    t.HasTypes ((c.vars? key).map (·.type)) := by
  obtain ⟨rs, hrs, rfl⟩ := project?_eq_some ht
  unfold Tuple.HasTypes Tuple.ofReadings
  simp only
  clear ht
  induction key generalizing rs with
  | nil =>
    obtain rfl : rs = [] := List.map_eq_nil_iff.mp hrs.symm
    exact .nil
  | cons i key ih =>
    obtain ⟨r, rs, rfl, hr, hrest⟩ := List.map_eq_cons_iff.mp hrs.symm
    obtain ⟨v, hv⟩ := exists_var_of_reading? hr.symm
    have hvars : c.vars? (i :: key) = v :: c.vars? key := List.filterMap_cons_some hv
    rw [hvars]
    have hi : i < c.size := (List.getElem?_eq_some_iff.mp hv).1
    exact .cons (h i hi v hv r hr.symm) (ih rs hrest.symm)

end Typed

/-! ## Slices -/

section Slices

variable {c : Catalog} {log log' : List (Sample × Nat)}

theorem total_perm {α : Type} {log log' : List (α × Nat)} (h : log.Perm log') :
    total log = total log' := by
  induction h with
  | nil => rfl
  | cons x _ ih => rw [total_cons, total_cons, ih]
  | swap x y log =>
    simp only [total_cons]
    omega
  | trans _ _ ih ih' => exact ih.trans ih'

/-- A slice that is given its samples in another order ends the same. -/
theorem Slice.addAll_perm {s : Slice} (hfresh : ∀ e ∈ s.entries, e.inv.IsFresh)
    (hkinds : ∀ e ∈ s.entries, e.inv.kind ≠ .linear)
    (hfloat : ∀ v ∈ c.vars, v.type.isFloating = false) (htyped : ∀ x ∈ log, c.IsTyped x.1)
    (hperm : log.Perm log') : s.addAll c log = s.addAll c log' := by
  have htuples : (c.tuples s.key log).Perm (c.tuples s.key log') := hperm.filterMap _
  have hentries : (s.addAll c log).entries = (s.addAll c log').entries := by
    rw [s.addAll_entries log, s.addAll_entries log']
    refine List.filterMap_congr fun e he => ?_
    unfold SliceEntry.addAll?
    congr 1
    refine Invariant.addAll?_perm ((hfresh e he).keeps ((c.vars? s.key).map (·.type)))
      (fun t ht => ?_) (hkinds e he) htuples fun x hx => ?_
    · obtain ⟨v, hv, rfl⟩ := List.mem_map.mp ht
      obtain ⟨i, -, hi⟩ := List.mem_filterMap.mp hv
      exact hfloat v (List.mem_of_getElem? hi)
    · obtain ⟨sample, hmem, hproject⟩ := Catalog.mem_tuples.mp hx
      exact (htyped _ hmem).hasTypes hproject
  obtain ⟨hsamples, hall⟩ := s.addAll_counts (c := c) log
  obtain ⟨hsamples', hall'⟩ := s.addAll_counts (c := c) log'
  rw [total_perm htuples] at hsamples
  rw [total_perm hperm] at hall
  have hkey : (s.addAll c log).key = (s.addAll c log').key := by
    rw [s.addAll_key log, s.addAll_key log']
  have hcount := hsamples.trans hsamples'.symm
  have hmissing : (s.addAll c log).missing = (s.addAll c log').missing := by omega
  generalize s.addAll c log = a, s.addAll c log' = b at *
  cases a
  cases b
  simp_all

end Slices

/-! ## Points -/

namespace Point

variable {p q before : Point} {scope : Scope} {hs : List Happening} {log : List (Sample × Nat)}

/-- The slices of a point are those with which its views were opened, fed with the samples it took
since, without those that are empty. -/
theorem Steps.slices_fed (hfresh : p.IsFresh) (h : p.Steps hs q)
    (hlife : hs = .opened before scope 0 :: log.map Happening.ofSample) :
    IsOpening before scope (before.opened scope).slices ∧
      q.slices = ((before.opened scope).slices.map (Slice.addAll before.catalog log)).filter
        (!·.isEmpty) := by
  induction h generalizing log with
  | start => cases hlife
  | still _ k ih =>
    rw [k.slices]
    exact ih hlife
  | step hsteps k ih =>
    rcases snoc_eq_cons_map hlife with ⟨rfl, rfl, rfl⟩ | ⟨log', x, rfl, hlife', rfl⟩
    · cases k with
      | opened hopen =>
        have hnone := (hsteps.still_of_nil rfl).slices.trans hfresh.slices
        have hopening := isOpening_of_openViews hopen hnone
        obtain ⟨rfl, -⟩ := openViews_ok hopen
        rcases exec_openViews scope before with ⟨n, -, hexec⟩ | ⟨e, -, hexec⟩ <;>
          rw [hopen] at hexec <;> cases hexec
        refine ⟨hopening, ?_⟩
        have hkept (s : Slice) (hs : s ∈ (before.opened scope).slices) : (!s.isEmpty) = true := by
          rw [hopening.nonempty s hs]
          rfl
        have hunfed : (before.opened scope).slices.map (Slice.addAll before.catalog []) =
            (before.opened scope).slices := List.map_id _
        rw [hunfed]
        exact (List.filter_eq_self.mpr hkept).symm
    · cases k with
      | took =>
        obtain ⟨hopening, hslices⟩ := ih hlife'
        refine ⟨hopening, ?_⟩
        rw [slices_feed hslices, (hsteps.hasFed hfresh hlife').catalog]
        simp only [← Slice.addAll_snoc]

/-- The invariants with which a slice is opened are candidates of the kinds in use. -/
theorem IsOpening.mem_candidates {slices : List Slice} (h : IsOpening before scope slices)
    {s : Slice} (hs : s ∈ slices) {e : SliceEntry} (he : e ∈ s.entries) :
    e.inv ∈ scope.candidates before 0 s.key := by
  rw [← (h.isNew s hs).entries]
  exact List.mem_map_of_mem he

/-- Two points that were opened alike and took the same samples in different orders have the same
slices. -/
theorem Steps.slices_perm {p' q' : Point} {hs' : List Happening} {log' : List (Sample × Nat)}
    (hfresh : p.IsFresh) (h : p.Steps hs q)
    (hlife : hs = .opened before scope 0 :: log.map Happening.ofSample)
    (hfresh' : p'.IsFresh) (h' : p'.Steps hs' q')
    (hlife' : hs' = .opened before scope 0 :: log'.map Happening.ofSample)
    (hmake : scope.factories.MakeFresh)
    (hkinds : ∀ vars, ∀ inv ∈ scope.factories.candidates vars, inv.kind ≠ .linear)
    (hfloat : ∀ v ∈ before.catalog.vars, v.type.isFloating = false)
    (htyped : ∀ x ∈ log, before.catalog.IsTyped x.1) (hperm : log.Perm log') :
    q.slices = q'.slices := by
  obtain ⟨hopening, hslices⟩ := h.slices_fed hfresh hlife
  obtain ⟨-, hslices'⟩ := h'.slices_fed hfresh' hlife'
  rw [hslices, hslices']
  congr 1
  refine List.map_congr_left fun s hs => ?_
  refine Slice.addAll_perm (fun e he => ?_) (fun e he => ?_) hfloat htyped hperm
  · exact Scope.isFresh_of_mem_candidates hmake (hopening.mem_candidates hs he)
  · exact hkinds _ _ (Scope.mem_factories_candidates (hopening.mem_candidates hs he))

end Point

/-! ## Sessions -/

/-- **The order of samples does not matter.** Let the views of a point be opened over its whole
catalog, no later than at its first sample, with fresh candidates, and nothing else be done to its
slices by hand. If it looks for no lines, its variables hold no doubles, and the samples that it
takes have values of the variables' types, then taking them in another order comes to the same
slices: the same invariants under the same numbers, with the same formulas, counters and
justification, and the same counters of the slices and the point. -/
theorem Context.slices_perm_after {ctx : Context} (hempty : ctx.points = [])
    {acts acts' : List Action} {id : Nat} {q q' : Point}
    (hq : (ctx.after acts).points[id]? = some q) (hq' : (ctx.after acts').points[id]? = some q')
    {before : Point} {scope : Scope} {log log' : List (Sample × Nat)}
    (hlife : ctx.happenings acts id = .opened before scope 0 :: log.map Happening.ofSample)
    (hlife' : ctx.happenings acts' id = .opened before scope 0 :: log'.map Happening.ofSample)
    (hperm : log.Perm log') (hmake : scope.factories.MakeFresh)
    (hkinds : ∀ vars, ∀ inv ∈ scope.factories.candidates vars, inv.kind ≠ .linear)
    (hfloat : ∀ v ∈ before.catalog.vars, v.type.isFloating = false)
    (htyped : ∀ x ∈ log, before.catalog.IsTyped x.1) :
    q'.slices = q.slices ∧ q'.samples = q.samples := by
  obtain ⟨p, hfresh, hsteps⟩ := steps_after hempty acts hq
  obtain ⟨p', hfresh', hsteps'⟩ := steps_after hempty acts' hq'
  refine ⟨(hsteps.slices_perm hfresh hlife hfresh' hsteps' hlife' hmake hkinds hfloat htyped
    hperm).symm, ?_⟩
  rw [(hsteps.hasFed hfresh hlife).samples, (hsteps'.hasFed hfresh' hlife').samples,
    total_perm hperm]

/-- A context in which no lines are looked for. -/
def Context.lineless : Context :=
  { standard with factories := .ofKinds (Kind.all.filter (· ≠ .linear)) }

/-- Two samples at a point with a constant, in the second of which a variable is missing, in both
orders. -/
theorem Context.slices_perm_after_swapped :
    let vars : List Declaration := [{ name := "x", type := .int },
      { name := "k", type := .int, constant := some (.int 7) }, { name := "xs", type := .intSeq }]
    let first : Sample × Nat := (⟨[some ⟨.int 3, true⟩, some ⟨.intSeq [5, 1], true⟩]⟩, 2)
    let second : Sample × Nat := (⟨[some ⟨.int 2, true⟩, none]⟩, 1)
    let acts : List Action :=
      [.addPoint "P" vars, .add 0 first.1 first.2, .add 0 second.1 second.2]
    let acts' : List Action :=
      [.addPoint "P" vars, .add 0 second.1 second.2, .add 0 first.1 first.2]
    ∃ q q' : Point, (lineless.after acts).points[0]? = some q ∧
      (lineless.after acts').points[0]? = some q' ∧ q.slices ≠ [] ∧
      q'.slices = q.slices ∧ q'.samples = q.samples := by
  intro vars first second acts acts'
  have hlife : lineless.happenings acts 0 =
      .opened (.ofVariables "P" vars) lineless.scope 0 ::
        [first, second].map Happening.ofSample := by
    unfold acts first second vars
    rfl
  have hlife' : lineless.happenings acts' 0 =
      .opened (.ofVariables "P" vars) lineless.scope 0 ::
        [second, first].map Happening.ofSample := by
    unfold acts' first second vars
    rfl
  obtain ⟨q, hq, hopen⟩ : ∃ q : Point, (lineless.after acts).points[0]? = some q ∧
      q.slices ≠ [] := by
    unfold acts first second vars
    exact ⟨_, rfl, by decide⟩
  obtain ⟨q', hq'⟩ : ∃ q' : Point, (lineless.after acts').points[0]? = some q' := by
    unfold acts' first second vars
    exact ⟨_, rfl⟩
  have hkinds : ∀ vars, ∀ inv ∈ lineless.factories.candidates vars, inv.kind ≠ .linear := by
    intro vars inv hinv
    have hkind := Factories.kind_of_mem_candidates_ofKinds hinv
    simpa using (List.mem_filter.mp hkind).2
  exact ⟨q, q', hq, hq', hopen, slices_perm_after rfl hq hq' hlife hlife' (.swap _ _ [])
    (Factories.makeFresh_ofKinds _) hkinds (by decide) (by decide)⟩

end LikelyInvariants
