import LikelyInvariants.Proofs.Catalog
import LikelyInvariants.Proofs.Session

/-!
# The life of a point

A session does six kinds of things to a point. Five of them concern its slices and leave a note:
they are opened over a range, a sample is taken, and a slice is filled, opened or closed by hand
(`Point.Step`). Everything else leaves the slices alone, and the catalog too once the slices are
open (`Point.Still`). The life of a point is a sequence of these (`Point.Steps`), and an invariant
of points is proved by cases on them.
-/

namespace LikelyInvariants

namespace Point

open Update

/-- A change that does not concern the slices. A number may have been used up. -/
structure Still (p q : Point) : Prop where
  name : q.name = p.name
  kind : q.kind = p.kind
  slices : q.slices = p.slices
  samples : q.samples = p.samples
  viewsOpen : q.viewsOpen = p.viewsOpen
  nextId : p.nextId ≤ q.nextId
  catalog : p.viewsOpen → q.catalog = p.catalog

namespace Still

theorem refl (p : Point) : Still p p :=
  ⟨rfl, rfl, rfl, rfl, rfl, Nat.le_refl _, fun _ => rfl⟩

theorem trans {p q r : Point} (h : Still p q) (k : Still q r) : Still p r where
  name := k.name.trans h.name
  kind := k.kind.trans h.kind
  slices := k.slices.trans h.slices
  samples := k.samples.trans h.samples
  viewsOpen := k.viewsOpen.trans h.viewsOpen
  nextId := Nat.le_trans h.nextId k.nextId
  catalog hopen := (k.catalog (h.viewsOpen.trans hopen)).trans (h.catalog hopen)

end Still

/-- A change of the slices, with what is noted about it. A sample is not taken before the slices
were opened, unless other samples were taken already. -/
inductive Step : Point → Happening → Point → Prop
  | opened {p q : Point} {scope : Scope} {min limit n : Nat}
      (h : (scope.openViews min limit).exec p = (.ok n, q)) : Step p (.opened p scope min) q
  | took {p : Point} {s : Sample} {count : Nat} (hopen : p.samples = 0 → p.viewsOpen)
      (hselects : p.selects s) (hsize : s.size = p.catalog.slotCount) :
      Step p (.took s count) (p.feed s count)
  | filled {p q : Point} {vars : List Nat} {inv : Invariant} {n : Nat}
      (h : (addInvariant vars inv).exec p = (.ok n, q)) : Step p (.filled vars inv) q
  | sliceOpened {p q : Point} {vars : List Nat} {s : Slice}
      (h : (openSlice vars).exec p = (.ok s, q)) : Step p (.sliceOpened vars) q
  | sliceRemoved {p q : Point} {vars : List Nat} {s : Slice}
      (h : (removeSlice vars).exec p = (.ok s, q)) : Step p (.sliceRemoved vars) q

/-- A sequence of changes, with what is noted about them. -/
inductive Steps (p : Point) : List Happening → Point → Prop
  | start : Steps p [] p
  | still {hs : List Happening} {q r : Point} (h : Steps p hs q) (k : Still q r) : Steps p hs r
  | step {hs : List Happening} {h : Happening} {q r : Point} (hsteps : Steps p hs q)
      (k : Step q h r) : Steps p (hs ++ [h]) r

namespace Steps

theorem of_still {p q : Point} (h : Still p q) : Steps p [] q := start.still h

theorem of_step {p q : Point} {h : Happening} (k : Step p h q) : Steps p [h] q := start.step k

theorem trans {p q r : Point} {hs ks : List Happening} (h : Steps p hs q) (k : Steps q ks r) :
    Steps p (hs ++ ks) r := by
  induction k with
  | start => simpa using h
  | still _ hstill ih => exact ih.still hstill
  | step _ hstep ih => simpa using ih.step hstep

/-- Without a note nothing happened to the slices. -/
theorem still_of_nil {p q : Point} {hs : List Happening} (h : Steps p hs q) (hnil : hs = []) :
    Still p q := by
  induction h with
  | start => exact Still.refl _
  | still _ k ih => exact (ih hnil).trans k
  | step => simp at hnil

end Steps

/-- A point as it is before anything happened to its slices. -/
structure IsFresh (p : Point) : Prop where
  slices : p.slices = []
  samples : p.samples = 0
  viewsOpen : p.viewsOpen = false

theorem isFresh_ofVariables (name : String) (vars : List Declaration) :
    (ofVariables name vars).IsFresh := ⟨rfl, rfl, rfl⟩

theorem isFresh_child (p : Point) (id : Nat) (s : Splitter) (polarity : Bool) :
    (p.child id s polarity).IsFresh := ⟨rfl, rfl, rfl⟩

/-! ## What each request comes to -/

section Inversion

/-- The point with slices opened for some keys. -/
def openAll (p : Point) (pending : List (List Nat × List Invariant)) : Point :=
  pending.foldl (fun p (key, invs) => p.openView key invs) p

theorem openAll_fields (p : Point) (pending : List (List Nat × List Invariant)) :
    (p.openAll pending).name = p.name ∧ (p.openAll pending).kind = p.kind ∧
      (p.openAll pending).children = p.children ∧ (p.openAll pending).catalog = p.catalog ∧
      (p.openAll pending).samples = p.samples ∧
      (p.openAll pending).derivations = p.derivations := by
  induction pending generalizing p with
  | nil => exact ⟨rfl, rfl, rfl, rfl, rfl, rfl⟩
  | cons x pending ih => exact ih (p.openView x.1 x.2)

@[simp] theorem openAll_name (p : Point) (pending : List (List Nat × List Invariant)) :
    (p.openAll pending).name = p.name := (openAll_fields p pending).1

@[simp] theorem openAll_kind (p : Point) (pending : List (List Nat × List Invariant)) :
    (p.openAll pending).kind = p.kind := (openAll_fields p pending).2.1

@[simp] theorem openAll_children (p : Point) (pending : List (List Nat × List Invariant)) :
    (p.openAll pending).children = p.children := (openAll_fields p pending).2.2.1

@[simp] theorem openAll_catalog (p : Point) (pending : List (List Nat × List Invariant)) :
    (p.openAll pending).catalog = p.catalog := (openAll_fields p pending).2.2.2.1

@[simp] theorem openAll_samples (p : Point) (pending : List (List Nat × List Invariant)) :
    (p.openAll pending).samples = p.samples := (openAll_fields p pending).2.2.2.2.1

@[simp] theorem openAll_derivations (p : Point) (pending : List (List Nat × List Invariant)) :
    (p.openAll pending).derivations = p.derivations := (openAll_fields p pending).2.2.2.2.2

/-- Slices open over a range that reaches to the end of the catalog, each with its candidates. -/
theorem openViews_ok {scope : Scope} {min limit n : Nat} {p q : Point}
    (h : (scope.openViews min limit).exec p = (.ok n, q)) :
    limit = p.catalog.size ∧ min ≤ limit ∧ ∃ pending,
      p.pendingViews scope.factories scope.controlled
        (p.catalog.viewKeys min limit scope.ternary) = .ok pending ∧
      q = { p.openAll pending with viewsOpen := true } := by
  rw [Scope.openViews, openViews] at h
  simp only [exec_bind, exec_get] at h
  split at h
  · simp at h
  · next hrange =>
    obtain ⟨hlimit, hmin⟩ : limit = p.catalog.size ∧ min ≤ limit := by omega
    refine ⟨hlimit, hmin, ?_⟩
    split at h
    · next heq =>
      subst heq
      simp only [exec_bind, exec_set, exec_pure, Prod.mk.injEq] at h
      exact ⟨[], by rw [Catalog.viewKeys_self]; rfl, h.2.symm⟩
    · simp only [exec_bind, exec_lift] at h
      cases hpending : p.pendingViews scope.factories scope.controlled
          (p.catalog.viewKeys min limit scope.ternary) with
      | error e => simp [hpending] at h
      | ok pending =>
        simp only [hpending, exec_set, exec_pure, Prod.mk.injEq] at h
        exact ⟨pending, rfl, h.2.symm⟩

theorem openViews_error {scope : Scope} {min limit : Nat} {e : Error} {p q : Point}
    (h : (scope.openViews min limit).exec p = (.error e, q)) : q = p := by
  rw [Scope.openViews, openViews] at h
  simp only [exec_bind, exec_get] at h
  split at h
  · simp only [exec_throw, Prod.mk.injEq] at h
    exact h.2.symm
  · split at h
    · simp at h
    · simp only [exec_bind, exec_lift] at h
      cases hpending : p.pendingViews scope.factories scope.controlled
          (p.catalog.viewKeys min limit scope.ternary) with
      | error e => simp only [hpending, Prod.mk.injEq] at h; exact h.2.symm
      | ok pending => simp [hpending] at h

/-- Positions of variables of a point, over which it has no slice. -/
structure IsUnused (p : Point) (key : List Nat) : Prop where
  lt : ∀ i ∈ key, i < p.catalog.size
  unused : ∀ s ∈ p.slices, s.key ≠ key

/-- The key of a slice has its variables in order, and they are variables of the point. -/
theorem of_key_ok {vars sorted : List Nat} {p : Point} (h : p.key vars = .ok sorted) :
    sorted = vars.mergeSort ∧ ∀ i ∈ sorted, i < p.catalog.size := by
  unfold key at h
  dsimp only at h
  split at h
  · next hvalid =>
    cases h
    exact ⟨rfl, by simpa using hvalid.2.2.2⟩
  · cases h

theorem isUnused_of_key_ok {vars key : List Nat} {p : Point} (h : p.key vars = .ok key)
    (hslice : p.slice? key = none) : p.IsUnused key :=
  ⟨(of_key_ok h).2, by simpa [slice?] using hslice⟩

/-- A slice that is opened by hand has no invariants, and there was no slice over its variables. -/
theorem openSlice_new {vars : List Nat} {s : Slice} {p q : Point}
    (h : (openSlice vars).exec p = (.ok s, q)) :
    q = p ∨ ∃ key, p.IsUnused key ∧ q = { p with slices := insertSlice { key } p.slices } := by
  simp only [openSlice, exec_bind, exec_get, exec_lift] at h
  cases hkey : p.key vars with
  | error e => simp [hkey] at h
  | ok key =>
    simp only [hkey] at h
    cases hslice : p.slice? key with
    | some t =>
      simp only [hslice, exec_pure, Prod.mk.injEq] at h
      exact .inl h.2.symm
    | none =>
      simp only [hslice, exec_bind, exec_set, exec_pure, Prod.mk.injEq] at h
      exact .inr ⟨key, isUnused_of_key_ok hkey hslice, h.2.symm⟩

theorem openSlice_ok {vars : List Nat} {s : Slice} {p q : Point}
    (h : (openSlice vars).exec p = (.ok s, q)) :
    q = p ∨ ∃ key, q = { p with slices := insertSlice { key } p.slices } :=
  (openSlice_new h).imp_right fun ⟨key, _, hq⟩ => ⟨key, hq⟩

theorem openSlice_error {vars : List Nat} {e : Error} {p q : Point}
    (h : (openSlice vars).exec p = (.error e, q)) : q = p := by
  simp only [openSlice, exec_bind, exec_get, exec_lift] at h
  cases hkey : p.key vars with
  | error e => simp only [hkey, Prod.mk.injEq] at h; exact h.2.symm
  | ok key => cases hslice : p.slice? key <;> simp [hkey, hslice] at h

/-- An invariant that is added gets the next number and stands last in the slice over its variables,
which may have been opened for it. -/
theorem addInvariant_new {vars : List Nat} {inv : Invariant} {n : Nat} {p q : Point}
    (h : (addInvariant vars inv).exec p = (.ok n, q)) :
    ∃ slices, (slices = p.slices ∨ p.IsUnused vars.mergeSort ∧
        slices = insertSlice { key := vars.mergeSort } p.slices) ∧
      q = { p with
        slices := slices.map fun t =>
          if t.key = vars.mergeSort then
            { t with entries := t.entries ++ [{ id := p.nextId, inv }] }
          else t
        nextId := p.nextId + 1 } := by
  simp only [addInvariant, openSlice, exec_bind, exec_get, exec_set, exec_lift] at h
  cases hkey : ({ p with nextId := p.nextId + 1 } : Point).key vars with
  | error e => simp [hkey] at h
  | ok key =>
    obtain rfl := (of_key_ok hkey).1
    simp only [hkey] at h
    cases hslice : ({ p with nextId := p.nextId + 1 } : Point).slice? vars.mergeSort with
    | some t =>
      have hfound : t.key = vars.mergeSort := by simpa using List.find?_some hslice
      simp only [hslice, exec_pure, exec_modify, hfound, Prod.mk.injEq] at h
      exact ⟨p.slices, .inl rfl, h.2.symm⟩
    | none =>
      have hunused : p.IsUnused vars.mergeSort := isUnused_of_key_ok (p := p) hkey hslice
      simp only [hslice, exec_bind, exec_set, exec_pure, exec_modify, Prod.mk.injEq] at h
      exact ⟨_, .inr ⟨hunused, rfl⟩, h.2.symm⟩

theorem addInvariant_ok {vars : List Nat} {inv : Invariant} {n : Nat} {p q : Point}
    (h : (addInvariant vars inv).exec p = (.ok n, q)) :
    ∃ slices, (slices = p.slices ∨ slices = insertSlice { key := vars.mergeSort } p.slices) ∧
      q = { p with
        slices := slices.map fun t =>
          if t.key = vars.mergeSort then
            { t with entries := t.entries ++ [{ id := p.nextId, inv }] }
          else t
        nextId := p.nextId + 1 } := by
  obtain ⟨slices, hslices, hq⟩ := addInvariant_new h
  exact ⟨slices, hslices.imp_right And.right, hq⟩

/-- A number is used up even if the invariant finds no slice. -/
theorem addInvariant_error {vars : List Nat} {inv : Invariant} {e : Error} {p q : Point}
    (h : (addInvariant vars inv).exec p = (.error e, q)) :
    q = { p with nextId := p.nextId + 1 } := by
  simp only [addInvariant, exec_bind, exec_get, exec_set] at h
  rcases hopen : (openSlice vars).exec { p with nextId := p.nextId + 1 } with ⟨e' | s, r⟩
  · simp only [hopen, Prod.mk.injEq] at h
    rw [← h.2, openSlice_error hopen]
  · simp [hopen] at h

theorem removeSlice_ok {vars : List Nat} {s : Slice} {p q : Point}
    (h : (removeSlice vars).exec p = (.ok s, q)) :
    ∃ key, q = { p with slices := p.slices.filter (·.key ≠ key) } := by
  simp only [removeSlice, exec_bind, exec_get, exec_lift] at h
  cases hkey : p.key vars with
  | error e => simp [hkey] at h
  | ok key =>
    simp only [hkey] at h
    cases hslice : p.slice? key with
    | some t =>
      simp only [hslice, exec_bind, exec_set, exec_pure, Prod.mk.injEq] at h
      exact ⟨key, h.2.symm⟩
    | none => simp [hslice] at h

theorem removeSlice_error {vars : List Nat} {e : Error} {p q : Point}
    (h : (removeSlice vars).exec p = (.error e, q)) : q = p := by
  simp only [removeSlice, exec_bind, exec_get, exec_lift] at h
  cases hkey : p.key vars with
  | error e => simp only [hkey, Prod.mk.injEq] at h; exact h.2.symm
  | ok key =>
    cases hslice : p.slice? key with
    | some t => simp [hkey, hslice] at h
    | none => simp only [hkey, hslice, exec_throw, Prod.mk.injEq] at h; exact h.2.symm

end Inversion

/-! ## Growth -/

section Growth

/-- A change of the variables and their derivations only. There may be more of both at the end, but
no derivation without a variable. -/
def OnlyGrows (p q : Point) : Prop :=
  ∃ vars ds derivedThrough, List.length ds ≤ List.length vars ∧
    q = { p with
      catalog := p.catalog.append vars
      derivations := p.derivations ++ ds
      derivedThrough }

theorem onlyGrows_refl (p : Point) : OnlyGrows p p :=
  ⟨[], [], p.derivedThrough, Nat.le_refl _, by simp⟩

theorem onlyGrows_trans {p q r : Point} (h : OnlyGrows p q) (k : OnlyGrows q r) :
    OnlyGrows p r := by
  obtain ⟨vars, ds, _, hlen, rfl⟩ := h
  obtain ⟨more, es, through, hmore, rfl⟩ := k
  refine ⟨vars ++ more, ds ++ es, through, ?_, by simp [Catalog.append_append]⟩
  rw [List.length_append, List.length_append]
  omega

theorem onlyGrows_addDerived (p : Point) (ds : List Derivation) : OnlyGrows p (p.addDerived ds) :=
  ⟨_, _, p.derivedThrough, by simp, rfl⟩

/-- Without another variable there is no other derivation. -/
theorem OnlyGrows.eq_of_size_le {p q : Point} (h : OnlyGrows p q)
    (hsize : q.catalog.size ≤ p.catalog.size) :
    q.catalog = p.catalog ∧ q.derivations = p.derivations := by
  obtain ⟨vars, ds, _, hlen, rfl⟩ := h
  have hnone : vars.length = 0 := by
    rw [Catalog.size_append] at hsize
    omega
  obtain rfl : vars = [] := List.length_eq_zero_iff.mp hnone
  obtain rfl : ds = [] := List.length_eq_zero_iff.mp (by simpa using hlen)
  exact ⟨rfl, List.append_nil _⟩

/-- Whether a point may take over variables is a matter of its slices and its edges. -/
theorem OnlyGrows.checkFollows {p q : Point} (h : OnlyGrows p q) :
    q.checkFollows = p.checkFollows := by
  obtain ⟨_, _, _, -, rfl⟩ := h
  rfl

/-- A point whose slices are open has its variables, and so has a child whose parent does not give
it more. -/
def IsFrozen (p : Point) : Prop := p.viewsOpen ∨ p.kind.isConditional

theorem checkGrows_ok {p : Point} {u : Unit} (h : p.checkGrows = .ok u) : ¬p.IsFrozen := by
  unfold checkGrows at h
  split at h
  · cases h
  · next hgrows => simpa [IsFrozen] using hgrows

/-- All edges by which variables of the point are mapped. -/
def edges (p : Point) : List FlowEdge := p.dataflow ++ p.invflow

theorem edges_eq_nil {p : Point} (h : p.hasNoEdges) : p.edges = [] := by
  simpa [edges, hasNoEdges] using h

theorem OnlyGrows.edges {p q : Point} (h : OnlyGrows p q) : q.edges = p.edges := by
  obtain ⟨_, _, _, -, rfl⟩ := h
  rfl

theorem checkNoEdges_ok {p : Point} {u : Unit} (h : p.checkNoEdges = .ok u) :
    p.hasNoEdges = true := by
  unfold checkNoEdges at h
  split at h
  · assumption
  · cases h

/-- A point that may follow has neither open slices nor edges. -/
theorem checkFollows_ok {p : Point} {u : Unit} (h : p.checkFollows = .ok u) :
    p.viewsOpen = false ∧ p.hasNoEdges := by
  unfold checkFollows at h
  split at h
  · cases h
  · next hopen =>
    split at h
    · cases h
    · next hedges => exact ⟨by simpa using hopen, by simpa using hedges⟩

/-- A change of the variables that leaves a frozen point as it is, and the variables of one that has
edges to map them. -/
structure Grown (p q : Point) : Prop where
  onlyGrows : OnlyGrows p q
  frozen : p.IsFrozen → q = p
  mapped : p.hasNoEdges = false → q.catalog = p.catalog

namespace Grown

theorem refl (p : Point) : Grown p p := ⟨onlyGrows_refl p, fun _ => rfl, fun _ => rfl⟩

theorem still {p q : Point} (h : Grown p q) : Still p q := by
  obtain ⟨_, _, _, -, hq⟩ := h.onlyGrows
  refine ⟨?_, ?_, ?_, ?_, ?_, Nat.le_of_eq ?_, fun hopen => by rw [h.frozen (.inl hopen)]⟩
  all_goals rw [hq]

theorem children {p q : Point} (h : Grown p q) : q.children = p.children := by
  obtain ⟨_, _, _, -, hq⟩ := h.onlyGrows
  rw [hq]

theorem appended {p q : Point} (h : Grown p q) : ∃ vars, q.catalog = p.catalog.append vars := by
  obtain ⟨vars, _, _, -, hq⟩ := h.onlyGrows
  exact ⟨vars, by rw [hq]⟩

end Grown

/-- A request for more variables adds them all or fails without a change. -/
theorem addVariables_cases (vars : List Declaration) (p : Point) :
    (∃ e, (addVariables vars).exec p = (.error e, p)) ∨
      Grown p { p with catalog := p.catalog.append vars } ∧ (addVariables vars).exec p =
        (.ok (p.catalog.size, (p.catalog.append vars).size),
          { p with catalog := p.catalog.append vars }) := by
  simp only [addVariables, exec_bind, exec_get, exec_lift]
  cases hgrows : p.checkGrows with
  | error e => exact .inl ⟨e, rfl⟩
  | ok u =>
    have hgrown (hmapped : vars = [] ∨ p.hasNoEdges) :
        Grown p { p with catalog := p.catalog.append vars } := by
      refine ⟨⟨vars, [], p.derivedThrough, Nat.zero_le _, by simp⟩,
        fun hfrozen => absurd hfrozen (checkGrows_ok hgrows), fun hedges => ?_⟩
      rcases hmapped with rfl | hnone
      · rfl
      · rw [hnone] at hedges
        cases hedges
    by_cases hvars : vars = []
    · subst hvars
      exact .inr ⟨hgrown (.inl rfl), by simp⟩
    · cases hedges : p.checkNoEdges with
      | error e => exact .inl ⟨e, by simp [exec_bind, hvars]⟩
      | ok u =>
        cases hconst : vars.find? (·.isConstant) with
        | some v =>
          exact .inl ⟨.staticConstantAppend p.name v.name, by simp [exec_bind, hvars]⟩
        | none =>
          exact .inr ⟨hgrown (.inr (checkNoEdges_ok hedges)), by simp [exec_bind, hvars]⟩

theorem grown_addVariables (vars : List Declaration) (p : Point) :
    Grown p ((addVariables vars).exec p).2 := by
  rcases addVariables_cases vars p with ⟨e, hexec⟩ | ⟨hgrown, hexec⟩ <;> rw [hexec]
  · exact Grown.refl p
  · exact hgrown

theorem size_addDerived (p : Point) (ds : List Derivation) :
    (p.addDerived ds).catalog.size = p.catalog.size + ds.length := by
  simp [addDerived, Catalog.size_append]

/-- Derivation ends at the end of the catalog. -/
theorem deriveFrom_done (rules : Rules) (settings : DeriveSettings) (fuel : Nat) {lower : Nat}
    {p : Point} (h : ¬lower < p.catalog.size) :
    (deriveFrom rules settings fuel lower p.catalog.size).exec p = (.ok p.catalog.size, p) := by
  cases fuel with
  | zero => rfl
  | succ fuel => simp [deriveFrom, Nat.not_lt.mp h]

/-- A pass goes on with what it finds, unless it finds something and an edge is in the way. The
position that is counted on is where the catalog ends. -/
theorem exec_deriveFrom_succ (rules : Rules) (settings : DeriveSettings) (fuel : Nat) {lower : Nat}
    {p : Point} (h : lower < p.catalog.size) :
    let ds := p.catalog.derivePass rules settings lower p.catalog.size
    (deriveFrom rules settings (fuel + 1) lower p.catalog.size).exec p =
      match if ds.isEmpty then .ok () else p.checkNoEdges with
      | .ok _ => (deriveFrom rules settings fuel p.catalog.size (p.addDerived ds).catalog.size).exec
          (p.addDerived ds)
      | .error e => (.error e, p) := by
  intro ds
  have hpass : p.derivePass rules settings lower p.catalog.size = .ok ds := by
    rw [derivePass, if_neg (by omega)]
  rw [size_addDerived]
  simp only [deriveFrom, if_neg (Nat.not_le.mpr h), exec_bind, exec_get, exec_lift, hpass]
  cases ds with
  | nil => simp [exec_bind]
  | cons d ds => cases p.checkNoEdges <;> simp [exec_bind]

/-- Derivation ends when a pass finds nothing. -/
theorem deriveFrom_nil {rules : Rules} {settings : DeriveSettings} (fuel : Nat) {lower : Nat}
    {p : Point} (h : p.catalog.derivePass rules settings lower p.catalog.size = []) :
    (deriveFrom rules settings fuel lower p.catalog.size).exec p = (.ok p.catalog.size, p) := by
  have hadded : p.addDerived [] = p := by simp [addDerived, Catalog.append]
  by_cases hlt : lower < p.catalog.size
  · cases fuel with
    | zero => rfl
    | succ fuel =>
      rw [exec_deriveFrom_succ rules settings fuel hlt, h]
      simpa [hadded] using deriveFrom_done rules settings fuel (Nat.lt_irrefl _)
  · exact deriveFrom_done rules settings fuel hlt

/-- The passes of a run change the variables only and count up to the end of the catalog, or fail
without a change: whether an edge stands in the way of a variable is the same for the first variable
as for the last. -/
theorem deriveFrom_cases (rules : Rules) (settings : DeriveSettings) (fuel lower : Nat)
    (p : Point) :
    (∃ e, p.checkNoEdges ≠ .ok () ∧
      (deriveFrom rules settings fuel lower p.catalog.size).exec p = (.error e, p)) ∨
      ∃ q, (deriveFrom rules settings fuel lower p.catalog.size).exec p = (.ok q.catalog.size, q) ∧
        OnlyGrows p q ∧ (p.hasNoEdges = false → q.catalog = p.catalog) := by
  induction fuel generalizing p lower with
  | zero => exact .inr ⟨p, rfl, onlyGrows_refl p, fun _ => rfl⟩
  | succ fuel ih =>
    by_cases hlt : lower < p.catalog.size
    · obtain ⟨ds, hds⟩ : ∃ ds, p.catalog.derivePass rules settings lower p.catalog.size = ds :=
        ⟨_, rfl⟩
      cases ds with
      | nil => exact .inr ⟨p, deriveFrom_nil _ hds, onlyGrows_refl p, fun _ => rfl⟩
      | cons d ds =>
        rw [exec_deriveFrom_succ rules settings fuel hlt, hds]
        cases hedges : p.checkNoEdges with
        | error e => exact .inl ⟨e, by simp, rfl⟩
        | ok u =>
          have hgrows := onlyGrows_addDerived p (d :: ds)
          rcases ih p.catalog.size (p.addDerived (d :: ds)) with ⟨e, hfail, -⟩ | ⟨q, hexec, hq, -⟩
          · exact absurd hedges hfail
          · have hnone := checkNoEdges_ok hedges
            exact .inr ⟨q, hexec, onlyGrows_trans hgrows hq, fun hsome => by simp [hnone] at hsome⟩
    · exact .inr ⟨p, deriveFrom_done rules settings _ hlt, onlyGrows_refl p, fun _ => rfl⟩

/-- Derivation adds all it finds or fails without a change. -/
theorem createDerived_cases (rules : Rules) (settings : DeriveSettings) (p : Point) :
    (∃ e, (createDerived rules settings).exec p = (.error e, p)) ∨
      ∃ q, Grown p q ∧
        (createDerived rules settings).exec p = (.ok (q.catalog.size - p.catalog.size), q) := by
  simp only [createDerived, exec_bind, exec_get, exec_lift]
  cases hgrows : p.checkGrows with
  | error e => exact .inl ⟨e, rfl⟩
  | ok u =>
    rcases deriveFrom_cases rules settings (settings.maxDepth + 1) p.derivedThrough p with
      ⟨e, -, hexec⟩ | ⟨q, hexec, hq, hmapped⟩
    · exact .inl ⟨e, by simp [hexec]⟩
    · have hdone : OnlyGrows q { q with derivedThrough := q.catalog.size } :=
        ⟨[], [], q.catalog.size, Nat.le_refl _, by simp⟩
      have hgrown : Grown p { q with derivedThrough := q.catalog.size } :=
        ⟨onlyGrows_trans hq hdone, fun hfrozen => absurd hfrozen (checkGrows_ok hgrows), hmapped⟩
      exact .inr ⟨_, hgrown, by simp [hexec]⟩

theorem grown_createDerived (rules : Rules) (settings : DeriveSettings) (p : Point) :
    Grown p ((createDerived rules settings).exec p).2 := by
  rcases createDerived_cases rules settings p with ⟨e, hexec⟩ | ⟨q, hgrown, hexec⟩ <;> rw [hexec]
  · exact Grown.refl p
  · exact hgrown

/-- Nothing is derived when the first pass finds nothing. -/
theorem createDerived_nil {rules : Rules} {settings : DeriveSettings} {n : Nat} {p q : Point}
    (hpass : p.derivePass rules settings p.derivedThrough p.catalog.size = .ok [])
    (h : (createDerived rules settings).exec p = (.ok n, q)) : n = 0 := by
  have hds : p.catalog.derivePass rules settings p.derivedThrough p.catalog.size = [] := by
    unfold derivePass at hpass
    split at hpass
    · cases hpass
    · exact Except.ok.inj hpass
  simp only [createDerived, exec_bind, exec_get, exec_lift] at h
  cases hgrows : p.checkGrows with
  | error e => simp [hgrows] at h
  | ok u =>
    simp only [hgrows, deriveFrom_nil _ hds, exec_set, exec_pure, Prod.mk.injEq,
      Except.ok.injEq] at h
    omega

end Growth

/-! ## Requests to one point -/

/-- A step of a point that does `hs` when it succeeds and nothing of note when it fails. -/
theorem steps_exec {α : Type} {m : Update Point α} {hs : List Happening} {p : Point}
    (hok : ∀ a q, m.exec p = (.ok a, q) → Steps p hs q)
    (herror : ∀ e q, m.exec p = (.error e, q) → Still p q) :
    Steps p (if (m.exec p).1.isOk then hs else []) (m.exec p).2 := by
  rcases h : m.exec p with ⟨e | a, q⟩
  · exact Steps.of_still (herror e q h)
  · exact hok a q h

/-- The same for a step whose result is dropped. -/
theorem steps_discard {α : Type} {m : Update Point α} {hs : List Happening} {p : Point}
    (hok : ∀ a q, m.exec p = (.ok a, q) → Steps p hs q)
    (herror : ∀ e q, m.exec p = (.error e, q) → Still p q) :
    let m' : Update Point Unit := do let _ ← m
    Steps p (if (m'.exec p).1.isOk then hs else []) (m'.exec p).2 := by
  refine steps_exec (fun a q h => ?_) fun e q h => ?_
  all_goals
    rw [exec_bind] at h
    rcases hm : m.exec p with ⟨e' | a', q'⟩ <;> rw [hm] at h <;> cases h
  · exact hok a' _ hm
  · exact herror _ _ hm

/-- What a request does to a point is noted if it succeeds, and leaves the slices alone if it
fails. -/
theorem steps_perform (a : PointAction) (p : Point) :
    Steps p (if ((perform a).exec p).1.isOk then a.happenings p else [])
      ((perform a).exec p).2 := by
  cases a with
  | addVariables vars =>
    have hstill := (grown_addVariables vars p).still
    refine steps_discard (fun a q h => ?_) fun e q h => ?_ <;> rw [h] at hstill
    · exact Steps.of_still hstill
    · exact hstill
  | createDerived rules settings =>
    have hstill := (grown_createDerived rules settings p).still
    refine steps_discard (fun a q h => ?_) fun e q h => ?_ <;> rw [h] at hstill
    · exact Steps.of_still hstill
    · exact hstill
  | openViews scope min limit =>
    refine steps_discard (fun n q h => Steps.of_step (.opened h)) fun e q h => ?_
    rw [openViews_error h]
    exact Still.refl p
  | openSlice vars =>
    refine steps_discard (fun s q h => Steps.of_step (.sliceOpened h)) fun e q h => ?_
    rw [openSlice_error h]
    exact Still.refl p
  | addInvariant vars inv =>
    refine steps_discard (fun n q h => Steps.of_step (.filled h)) fun e q h => ?_
    rw [addInvariant_error h]
    exact ⟨rfl, rfl, rfl, rfl, rfl, Nat.le_succ _, fun _ => rfl⟩
  | removeSlice vars =>
    refine steps_discard (fun s q h => Steps.of_step (.sliceRemoved h)) fun e q h => ?_
    rw [removeSlice_error h]
    exact Still.refl p

/-- The step by which a point takes a sample. -/
def take (scope : Scope) (s : Sample) (count : Nat) : Update Point Unit := do
  openForFirst scope.factories scope.controlled scope.ternary
  modify (feed · s count)

/-- Taking a sample opens the slices first if that was not done before. If that fails, the point
stays as it is. -/
theorem steps_take (scope : Scope) (s : Sample) (count : Nat) {p : Point}
    (hselects : p.selects s) (hsize : s.size = p.catalog.slotCount) :
    Steps p (if ((take scope s count).exec p).1.isOk then p.intake scope s count else [])
      ((take scope s count).exec p).2 := by
  unfold take openForFirst intake
  by_cases hfirst : p.samples = 0 ∧ p.viewsOpen = false
  · rcases h : (scope.openViews 0 p.catalog.size).exec p with ⟨e | n, q⟩
    · simp only [Scope.openViews] at h
      have hq : q = p := openViews_error h
      simpa [exec_bind, hfirst, h, hq] using Steps.start
    · obtain ⟨-, -, pending, -, hq⟩ := openViews_ok h
      have htook : Step q (.took s count) (q.feed s count) := by
        refine .took (fun _ => by simp [hq]) ?_ (by simpa [hq] using hsize)
        simpa [selects, hq] using hselects
      simp only [Scope.openViews] at h
      simpa [exec_bind, hfirst, h] using (Steps.of_step (.opened h)).step htook
  · have hopen : p.samples = 0 → p.viewsOpen := by simpa using hfirst
    simpa [exec_bind, hfirst] using Steps.of_step (.took hopen hselects hsize)

/-! ## What is left alone -/

section Steady

/-- A change that leaves the name, the relatives and the variables of a point as they are. -/
structure Steady (p q : Point) : Prop where
  name : q.name = p.name
  kind : q.kind = p.kind
  children : q.children = p.children
  catalog : q.catalog = p.catalog
  derivations : q.derivations = p.derivations

theorem steady_refl (p : Point) : Steady p p := ⟨rfl, rfl, rfl, rfl, rfl⟩

theorem steady_symm (p q : Point) (h : Steady p q) : Steady q p :=
  ⟨h.name.symm, h.kind.symm, h.children.symm, h.catalog.symm, h.derivations.symm⟩

end Steady

/-! ## Requests about slices -/

section Sliced

/-- A change of the slices and of what is counted and numbered with them only. -/
def Sliced (p q : Point) : Prop :=
  ∃ slices samples viewsOpen nextId, q = { p with slices, samples, viewsOpen, nextId }

theorem sliced_refl (p : Point) : Sliced p p := ⟨p.slices, p.samples, p.viewsOpen, p.nextId, rfl⟩

theorem sliced_trans (p q r : Point) (h : Sliced p q) (k : Sliced q r) : Sliced p r := by
  obtain ⟨_, _, _, _, rfl⟩ := h
  obtain ⟨slices, samples, viewsOpen, nextId, rfl⟩ := k
  exact ⟨slices, samples, viewsOpen, nextId, rfl⟩

theorem Sliced.steady {p q : Point} (h : Sliced p q) : Steady p q := by
  obtain ⟨_, _, _, _, rfl⟩ := h
  exact ⟨rfl, rfl, rfl, rfl, rfl⟩

theorem sliced_openAll (p : Point) (pending : List (List Nat × List Invariant)) :
    Sliced p (p.openAll pending) := by
  induction pending generalizing p with
  | nil => exact sliced_refl p
  | cons x pending ih =>
    have hopened : Sliced p (p.openView x.1 x.2) := ⟨_, p.samples, p.viewsOpen, _, rfl⟩
    exact sliced_trans _ _ _ hopened (ih _)

theorem sliced_openViews (scope : Scope) (min limit : Nat) :
    Keeps Sliced (scope.openViews min limit) := by
  intro p
  rcases h : (scope.openViews min limit).exec p with ⟨e | n, q⟩
  · rw [openViews_error h]
    exact sliced_refl p
  · obtain ⟨-, -, pending, -, rfl⟩ := openViews_ok h
    exact sliced_trans _ _ _ (sliced_openAll p pending) ⟨_, _, true, _, rfl⟩

theorem sliced_openSlice (vars : List Nat) : Keeps Sliced (openSlice vars) := by
  intro p
  rcases h : (openSlice vars).exec p with ⟨e | s, q⟩
  · rw [openSlice_error h]
    exact sliced_refl p
  · obtain rfl | ⟨key, rfl⟩ := openSlice_ok h
    · exact sliced_refl q
    · exact ⟨_, p.samples, p.viewsOpen, p.nextId, rfl⟩

theorem sliced_addInvariant (vars : List Nat) (inv : Invariant) :
    Keeps Sliced (addInvariant vars inv) := by
  intro p
  simp only [addInvariant, exec_bind, exec_get, exec_set]
  have hnumbered : Sliced p { p with nextId := p.nextId + 1 } :=
    ⟨p.slices, p.samples, p.viewsOpen, p.nextId + 1, rfl⟩
  have hopened :=
    sliced_trans _ _ _ hnumbered (sliced_openSlice vars { p with nextId := p.nextId + 1 })
  rcases h : (openSlice vars).exec { p with nextId := p.nextId + 1 } with ⟨e | s, q⟩ <;>
    rw [h] at hopened
  · exact hopened
  · exact sliced_trans _ _ _ hopened ⟨_, q.samples, q.viewsOpen, q.nextId, rfl⟩

theorem sliced_removeSlice (vars : List Nat) : Keeps Sliced (removeSlice vars) := by
  intro p
  rcases h : (removeSlice vars).exec p with ⟨e | s, q⟩
  · rw [removeSlice_error h]
    exact sliced_refl p
  · obtain ⟨key, rfl⟩ := removeSlice_ok h
    exact ⟨_, p.samples, p.viewsOpen, p.nextId, rfl⟩

theorem sliced_take (scope : Scope) (s : Sample) (count : Nat) :
    Keeps Sliced (take scope s count) := by
  refine keeps_bind sliced_trans (keeps_bind sliced_trans sliced_refl fun p => ?_) fun _ p => ?_
  · split
    · refine keeps_bind sliced_trans (sliced_openViews scope _ _) fun _ => ?_
      exact keeps_pure sliced_refl _
    · exact keeps_pure sliced_refl _
  · exact ⟨_, _, p.viewsOpen, p.nextId, rfl⟩

/-- A request that does not give the point variables is about its slices. -/
theorem sliced_perform {a : PointAction} (ha : a.grows = false) : Keeps Sliced (perform a) := by
  have hdiscard {α : Type} {m : Update Point α} (h : Keeps Sliced m) :
      Keeps Sliced (do let _ ← m) :=
    keeps_bind sliced_trans h fun _ => keeps_pure sliced_refl _
  cases a with
  | addVariables vars => cases ha
  | createDerived rules settings => cases ha
  | openViews scope min limit => exact hdiscard (sliced_openViews scope min limit)
  | openSlice vars => exact hdiscard (sliced_openSlice vars)
  | addInvariant vars inv => exact hdiscard (sliced_addInvariant vars inv)
  | removeSlice vars => exact hdiscard (sliced_removeSlice vars)

theorem steady_perform {a : PointAction} (ha : a.grows = false) : Keeps Steady (perform a) :=
  fun p => (sliced_perform ha p).steady

end Sliced

section Akin

/-- A change that leaves the name and the relatives of a point as they are. There may be more
variables; those of a child change only together with those of its parent. -/
structure Akin (p q : Point) : Prop where
  name : q.name = p.name
  kind : q.kind = p.kind
  children : q.children = p.children
  appended : ∃ vars, q.catalog = p.catalog.append vars
  catalog : p.kind.isConditional → q.catalog = p.catalog

theorem Steady.akin {p q : Point} (h : Steady p q) : Akin p q :=
  ⟨h.name, h.kind, h.children, ⟨[], h.catalog⟩, fun _ => h.catalog⟩

theorem Akin.size_le {p q : Point} (h : Akin p q) : p.catalog.size ≤ q.catalog.size := by
  obtain ⟨vars, hvars⟩ := h.appended
  rw [hvars, Catalog.size_append]
  exact Nat.le_add_right _ _

theorem akin_refl (p : Point) : Akin p p := (steady_refl p).akin

theorem akin_trans (p q r : Point) (h : Akin p q) (k : Akin q r) : Akin p r where
  name := k.name.trans h.name
  kind := k.kind.trans h.kind
  children := k.children.trans h.children
  appended := by
    obtain ⟨vars, hvars⟩ := h.appended
    obtain ⟨more, hmore⟩ := k.appended
    exact ⟨vars ++ more, by rw [hmore, hvars, Catalog.append_append]⟩
  catalog hchild := (k.catalog (by rw [h.kind]; exact hchild)).trans (h.catalog hchild)

/-- Growth without another variable is none. -/
theorem Grown.steady {p q : Point} (h : Grown p q) (hsize : q.catalog.size ≤ p.catalog.size) :
    Steady p q := by
  obtain ⟨hcatalog, hderivations⟩ := h.onlyGrows.eq_of_size_le hsize
  exact ⟨h.still.name, h.still.kind, h.children, hcatalog, hderivations⟩

theorem Grown.akin {p q : Point} (h : Grown p q) : Akin p q where
  name := h.still.name
  kind := h.still.kind
  children := h.children
  appended := h.appended
  catalog hchild := by rw [h.frozen (.inr hchild)]

/-- A request to a point leaves its name and relatives alone. -/
theorem akin_perform (a : PointAction) : Keeps Akin (perform a) := by
  have hdiscard {α : Type} {m : Update Point α} (h : Keeps Akin m) :
      Keeps Akin (do let _ ← m) :=
    keeps_bind akin_trans h fun _ => keeps_pure akin_refl _
  cases a with
  | addVariables vars => exact hdiscard fun p => (grown_addVariables vars p).akin
  | createDerived rules settings =>
    exact hdiscard fun p => (grown_createDerived rules settings p).akin
  | _ => exact fun p => (steady_perform rfl p).akin

theorem akin_after (acts : List PointAction) (p : Point) : Akin p (p.after acts) := by
  induction acts generalizing p with
  | nil => exact akin_refl p
  | cons a acts ih => exact akin_trans _ _ _ (akin_perform a p) (ih _)

end Akin

section Annotated

/-- A change that concerns neither the variables nor the slices nor the relatives of a point. -/
def Annotated (p q : Point) : Prop :=
  q = { p with
    dataflow := q.dataflow
    invflow := q.invflow
    implications := q.implications
    unconditional := q.unconditional
    redundant := q.redundant
    isObject := q.isObject }

theorem Annotated.still {p q : Point} (h : Annotated p q) : Still p q := by
  unfold Annotated at h
  refine ⟨?_, ?_, ?_, ?_, ?_, Nat.le_of_eq ?_, fun _ => ?_⟩
  all_goals rw [h]

theorem Annotated.steady {p q : Point} (h : Annotated p q) : Steady p q := by
  unfold Annotated at h
  refine ⟨?_, ?_, ?_, ?_, ?_⟩ <;> rw [h]

/-- An annotation that is not about what the children differ on. -/
def Tagged (p q : Point) : Prop :=
  ∃ dataflow invflow redundant isObject, q = { p with dataflow, invflow, redundant, isObject }

theorem tagged_refl (p : Point) : Tagged p p :=
  ⟨p.dataflow, p.invflow, p.redundant, p.isObject, rfl⟩

theorem Tagged.annotated {p q : Point} (h : Tagged p q) : Annotated p q := by
  obtain ⟨_, _, _, _, rfl⟩ := h
  rfl

theorem Tagged.steady {p q : Point} (h : Tagged p q) : Steady p q := h.annotated.steady

end Annotated

end Point

end LikelyInvariants
