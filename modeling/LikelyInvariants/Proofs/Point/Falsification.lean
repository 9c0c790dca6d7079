import LikelyInvariants.Proofs.Point.Batch

/-!
# What becomes of falsified invariants

An invariant that a sample falsifies is dropped from its slice, and its number is not given again:
what is alive at a point later was alive before or has a new number (`Point.Steps.isAlive`). But an
invariant is a fresh one with what it has picked up from samples, its form. A new invariant can have
the form of one that was falsified. It gets into a slice by hand, or when slices are opened over a
range (`Happening.Brings`), and the latter brings every candidate of the range
(`Point.isAlive_of_openViews`).
-/

namespace LikelyInvariants

/-! ## Forms -/

namespace Invariant

/-- The invariant as it was before it was fed: what it states, without what it has picked up. -/
def form : Invariant → Invariant
  | oneOf s => oneOf { type := s.type }
  | bound s => bound { side := s.side }
  | nonZero s => nonZero { hashcode := s.hashcode }
  | elementOneOf _ => elementOneOf {}
  | nonEmpty _ => nonEmpty {}
  | compared s => compared { op := s.op }
  | linear _ => linear {}
  | combination s => combination { op := s.op, result := s.result }

theorem IsFresh.form_eq {inv : Invariant} (h : inv.IsFresh) : inv.form = inv := by
  cases h <;> rfl

/-- Samples do not change the form. -/
theorem form_add? {t : Tuple} {n : Nat} {inv inv' : Invariant} (h : inv.add? t n = some inv') :
    inv'.form = inv.form := by
  cases inv <;> obtain ⟨s', hs, rfl⟩ := Option.map_eq_some_iff.mp h
  case oneOf =>
    obtain ⟨v, rest, values, -, -, rfl⟩ := OneOf.add?_eq_some hs
    rfl
  case bound =>
    obtain ⟨v, rest, -, hside, -⟩ := Bound.add?_eq_some hs
    rw [form, form, hside]
  case nonZero =>
    obtain ⟨v, rest, -, -, rfl⟩ := NonZero.add?_eq_some hs
    rfl
  case compared =>
    obtain ⟨a, b, rest, -, -, rfl⟩ := Compared.add?_eq_some hs
    rfl
  case combination =>
    obtain ⟨x, y, z, rest, -, -, rfl⟩ := Combination.add?_eq_some hs
    rfl
  all_goals rfl

end Invariant

/-- Whether a candidate for a key has a form, whoever controls the slice. -/
def Scope.Offers (scope : Scope) (c : Catalog) (min : Nat) (key : List Nat) (form : Invariant) :
    Prop :=
  key ∈ c.viewKeys min c.size scope.ternary ∧
    form ∈ (scope.factories.candidates (c.vars? key)).map Invariant.form

theorem Scope.offers_of_mem_candidates {scope : Scope} {p : Point} {min : Nat} {key : List Nat}
    {form : Invariant} (h : form ∈ (scope.candidates p min key).map Invariant.form) :
    scope.Offers p.catalog min key form := by
  unfold candidates at h
  split at h
  · next hkey => exact ⟨hkey.1, h⟩
  · simp at h

/-- Whether what happened can bring an invariant of a form into the slice over a key. -/
def Happening.Brings (key : List Nat) (form : Invariant) : Happening → Prop
  | opened before scope min => form ∈ (scope.candidates before min key).map Invariant.form
  | filled vars inv => vars.mergeSort = key ∧ inv.form = form
  | took _ _ | sliceOpened _ | sliceRemoved _ => False

namespace Point

/-- An invariant of a number is alive over a key, and it has a form. -/
def IsAlive (p : Point) (key : List Nat) (form : Invariant) (n : Nat) : Prop :=
  ∃ s ∈ p.slices, s.key = key ∧ ∃ e ∈ s.entries, e.id = n ∧ e.inv.form = form

instance (p : Point) (key : List Nat) (form : Invariant) (n : Nat) :
    Decidable (p.IsAlive key form n) :=
  inferInstanceAs (Decidable (∃ s ∈ p.slices, s.key = key ∧
    ∃ e ∈ s.entries, e.id = n ∧ e.inv.form = form))

variable {p q : Point} {key : List Nat} {form : Invariant} {n : Nat}

theorem IsAlive.of_slices (h : q.IsAlive key form n) (hslices : q.slices = p.slices) :
    p.IsAlive key form n := by
  obtain ⟨s, hs, hrest⟩ := h
  exact ⟨s, hslices ▸ hs, hrest⟩

/-! ## Numbers and variables -/

section Kept

/-- No number is given again. Views that are open stay open, over the same variables. -/
structure Kept (p q : Point) : Prop where
  nextId : p.nextId ≤ q.nextId
  viewsOpen : p.viewsOpen → q.viewsOpen
  catalog : p.viewsOpen → q.catalog = p.catalog

theorem Kept.refl (p : Point) : p.Kept p := ⟨Nat.le_refl _, id, fun _ => rfl⟩

theorem Kept.trans {r : Point} (h : p.Kept q) (k : q.Kept r) : p.Kept r where
  nextId := Nat.le_trans h.nextId k.nextId
  viewsOpen hopen := k.viewsOpen (h.viewsOpen hopen)
  catalog hopen := (k.catalog (h.viewsOpen hopen)).trans (h.catalog hopen)

theorem Still.kept (h : p.Still q) : p.Kept q where
  nextId := h.nextId
  viewsOpen := h.viewsOpen.trans
  catalog := h.catalog

theorem nextId_le_openAll (p : Point) (pending : List (List Nat × List Invariant)) :
    p.nextId ≤ (p.openAll pending).nextId := by
  induction pending generalizing p with
  | nil => exact Nat.le_refl _
  | cons x pending ih =>
    exact Nat.le_trans (p.nextId_le_openView x.1 x.2) (ih (p.openView x.1 x.2))

theorem Step.kept {h : Happening} (k : Step p h q) : p.Kept q := by
  cases k with
  | opened h =>
    obtain ⟨-, -, pending, -, rfl⟩ := openViews_ok h
    exact ⟨nextId_le_openAll p pending, fun _ => rfl, fun _ => openAll_catalog p pending⟩
  | took => exact ⟨Nat.le_refl _, id, fun _ => rfl⟩
  | filled h =>
    obtain ⟨_, -, rfl⟩ := addInvariant_ok h
    exact ⟨Nat.le_succ _, id, fun _ => rfl⟩
  | sliceOpened h =>
    obtain rfl | ⟨_, rfl⟩ := openSlice_ok h <;> exact ⟨Nat.le_refl _, id, fun _ => rfl⟩
  | sliceRemoved h =>
    obtain ⟨_, rfl⟩ := removeSlice_ok h
    exact ⟨Nat.le_refl _, id, fun _ => rfl⟩

theorem Steps.kept {hs : List Happening} (h : p.Steps hs q) : p.Kept q := by
  induction h with
  | start => exact .refl p
  | still _ k ih => exact ih.trans k.kept
  | step _ k ih => exact ih.trans k.kept

/-- When slices are opened again, the views of the point are open, over the same variables. -/
theorem Steps.before_viewsOpen {hs : List Happening} (h : p.Steps hs q) (hopen : p.viewsOpen)
    {before : Point} {scope : Scope} {min : Nat} (hmem : .opened before scope min ∈ hs) :
    before.viewsOpen ∧ before.catalog = p.catalog := by
  induction h with
  | start => cases hmem
  | still _ _ ih => exact ih hmem
  | step hsteps k ih =>
    rcases List.mem_append.mp hmem with hmem | hmem
    · exact ih hmem
    · obtain rfl := List.mem_singleton.mp hmem
      cases k
      exact ⟨hsteps.kept.viewsOpen hopen, hsteps.kept.catalog hopen⟩

end Kept

/-! ## Alive and dead -/

section Alive

/-- A sample keeps an invariant alive, with its number and form, or it does not. -/
theorem isAlive_of_feed {s : Sample} {count : Nat} (h : (p.feed s count).IsAlive key form n) :
    p.IsAlive key form n := by
  obtain ⟨t', ht', rfl, e', he', rfl, rfl⟩ := h
  obtain ⟨t, ht, rfl⟩ := List.mem_map.mp (List.mem_filter.mp ht').1
  split at he'
  · next hempty => simp [List.isEmpty_iff.mp hempty] at he'
  · next hne =>
    refine ⟨t, ht, by rw [if_neg hne, Slice.add_key], ?_⟩
    cases hproject : p.catalog.project? t.key s with
    | none =>
      rw [t.add_of_none hproject] at he'
      exact ⟨e', he', rfl, rfl⟩
    | some x =>
      rw [t.add_of_some hproject] at he'
      obtain ⟨e, he, hadd⟩ := List.mem_filterMap.mp he'
      obtain ⟨inv, hinv, rfl⟩ := Option.map_eq_some_iff.mp hadd
      exact ⟨e, he, rfl, (Invariant.form_add? hinv).symm⟩

/-- What is alive after a step was alive before, or it is new and was brought. -/
theorem Step.isAlive {h : Happening} (k : Step p h q) (halive : q.IsAlive key form n) :
    p.IsAlive key form n ∨ p.nextId ≤ n ∧ h.Brings key form := by
  cases k with
  | opened h =>
    obtain ⟨rfl, -, pending, hpending, rfl⟩ := openViews_ok h
    obtain ⟨s, hs, rfl, e, he, rfl, rfl⟩ := halive
    rcases mem_openAll hs with hs | ⟨⟨⟨key, invs⟩, hmem, hnew⟩, hids⟩
    · exact .inl ⟨s, hs, rfl, e, he, rfl, rfl⟩
    · obtain ⟨rfl, -⟩ := (mem_pendingViews hpending).mp hmem
      have hcandidate : e.inv ∈ s.entries.map SliceEntry.inv := List.mem_map_of_mem he
      rw [hnew.entries] at hcandidate
      refine .inr ⟨hids e he, ?_⟩
      rw [Happening.Brings, hnew.key]
      exact List.mem_map_of_mem hcandidate
  | took => exact .inl (isAlive_of_feed halive)
  | @filled _ vars inv m h =>
    -- one invariant is added at the end of one slice, which may have been opened for it
    obtain ⟨slices, hslices, rfl⟩ := addInvariant_ok h
    obtain ⟨s', hs', rfl, e, he, rfl, rfl⟩ := halive
    obtain ⟨s, hs, rfl⟩ := List.mem_map.mp hs'
    have hkey : (if s.key = vars.mergeSort then
        { s with entries := s.entries ++ [{ id := p.nextId, inv }] } else s).key = s.key := by
      split <;> rfl
    have hold (he : e ∈ s.entries) : p.IsAlive s.key e.inv.form e.id := by
      rcases hslices with rfl | rfl
      · exact ⟨s, hs, rfl, e, he, rfl, rfl⟩
      · rcases mem_insertSlice.mp hs with rfl | hs
        · cases he
        · exact ⟨s, hs, rfl, e, he, rfl, rfl⟩
    rw [hkey]
    split at he
    · next hvars =>
      rcases List.mem_append.mp he with he | he
      · exact .inl (hold he)
      · obtain rfl := List.mem_singleton.mp he
        exact .inr ⟨Nat.le_refl _, hvars.symm, rfl⟩
    · exact .inl (hold he)
  | sliceOpened h =>
    obtain rfl | ⟨_, rfl⟩ := openSlice_ok h
    · exact .inl halive
    · obtain ⟨s, hs, hkey, e, he, hrest⟩ := halive
      rcases mem_insertSlice.mp hs with rfl | hs
      · cases he
      · exact .inl ⟨s, hs, hkey, e, he, hrest⟩
  | sliceRemoved h =>
    obtain ⟨_, rfl⟩ := removeSlice_ok h
    obtain ⟨s, hs, hrest⟩ := halive
    exact .inl ⟨s, (List.mem_filter.mp hs).1, hrest⟩

/-- What is alive at a point was alive before, or it is new and was brought in between. -/
theorem Steps.isAlive {hs : List Happening} (h : p.Steps hs q) (halive : q.IsAlive key form n) :
    p.IsAlive key form n ∨ p.nextId ≤ n ∧ ∃ h ∈ hs, h.Brings key form := by
  induction h with
  | start => exact .inl halive
  | still _ k ih => exact ih (halive.of_slices k.slices)
  | step hsteps k ih =>
    rcases k.isAlive halive with halive | ⟨hnew, hbrings⟩
    · rcases ih halive with halive | ⟨hnew, h, hmem, hbrings⟩
      · exact .inl halive
      · exact .inr ⟨hnew, h, List.mem_append_left _ hmem, hbrings⟩
    · exact .inr ⟨Nat.le_trans hsteps.kept.nextId hnew, _,
        List.mem_append_right _ List.mem_cons_self, hbrings⟩

/-- Slices are opened where none is open. -/
theorem slice?_of_mem_pendingViews {fs : Factories} {controlled : Controlled}
    {keys : List (List Nat)} {pending : List (List Nat × List Invariant)}
    (h : p.pendingViews fs controlled keys = .ok pending) {x : List Nat × List Invariant}
    (hx : x ∈ pending) : p.slice? x.1 = none := by
  unfold pendingViews at h
  simp only at h
  split at h
  · cases h
  · next hnone =>
    cases h
    simpa using List.find?_eq_none.mp hnone x hx

/-- Slices that are opened over a range have every candidate, whatever was falsified before. -/
theorem isAlive_of_openViews {scope : Scope} {min limit k : Nat}
    (h : (scope.openViews min limit).exec p = (.ok k, q))
    {inv : Invariant} (hcandidate : inv ∈ scope.candidates p min key) :
    p.slice? key = none ∧ ∃ n, p.nextId ≤ n ∧ q.IsAlive key inv.form n := by
  obtain ⟨rfl, -, pending, hpending, rfl⟩ := openViews_ok h
  have hmem : (key, scope.candidates p min key) ∈ pending :=
    (mem_pendingViews hpending).mpr ⟨rfl, List.ne_nil_of_mem hcandidate⟩
  obtain ⟨s, hs, hnew, hids⟩ := exists_mem_openAll (p := p) hmem
  have hinv : inv ∈ s.entries.map SliceEntry.inv := by
    rw [hnew.entries]
    exact hcandidate
  obtain ⟨e, he, rfl⟩ := List.mem_map.mp hinv
  exact ⟨slice?_of_mem_pendingViews hpending hmem, e.id, hids e he, s, hs, hnew.key, e, he, rfl,
    rfl⟩

end Alive

end Point

end LikelyInvariants
