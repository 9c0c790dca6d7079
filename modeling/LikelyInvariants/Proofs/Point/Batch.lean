import LikelyInvariants.Proofs.Evolution
import LikelyInvariants.Proofs.Invariant.Feeding

/-!
# Feeding one by one and feeding at once

A point feeds its slices sample by sample and closes those that are left without invariants. What
comes of it can be said without the order of events: for each key, fold each candidate over the
tuples that the samples have at the key, and keep the ones that are never falsified
(`Scope.survivors`). The slices of a point are exactly those for whose keys something is kept, and
they hold exactly what is kept (`Point.IsBatch`).

The proof compares the slices that were opened first, fed with everything and never closed, with
the slices of the point: a closed slice would only stay empty (`Point.slices_feed`).
-/

namespace LikelyInvariants

/-! ## The specification -/

section Specification

/-- The tuples that some samples have at a key. -/
def Catalog.tuples (c : Catalog) (key : List Nat) (log : List (Sample × Nat)) :
    List (Tuple × Nat) :=
  log.filterMap fun x => (c.project? key x.1).map (·, x.2)

/-- The candidates of a point for a key, when its slices are opened from `min` on. -/
def Scope.candidates (scope : Scope) (p : Point) (min : Nat) (key : List Nat) : List Invariant :=
  if key ∈ p.catalog.viewKeys min p.catalog.size scope.ternary ∧ !scope.controlled p key then
    scope.factories.candidates (p.catalog.vars? key)
  else []

/-- The candidates for a key that no sample falsifies, as the samples leave them. -/
def Scope.survivors (scope : Scope) (p : Point) (key : List Nat) (log : List (Sample × Nat)) :
    List Invariant :=
  (scope.candidates p 0 key).filterMap (·.addAll? (p.catalog.tuples key log))

/-- A slice either feeds its invariants with the values of all its variables, or one of the values is
missing and it leaves them alone. -/
def Slice.FeedsWhole (s : Slice) (c : Catalog) (x : Sample) (count : Nat) : Prop :=
  (∃ rs : List Reading, s.key.map (c.reading? x) = rs.map some ∧
    (Tuple.ofReadings rs).state ≠ .missing ∧
    (s.add c x count).entries = s.entries.filterMap (·.add? (.ofReadings rs) count)) ∨
  (∃ i ∈ s.key, c.reading? x i = none) ∧ (s.add c x count).entries = s.entries

/-- The slices of a point are those of a fold over all samples at once, the slices having been
opened when the point was `before`. -/
structure Point.IsBatch (q before : Point) (scope : Scope) (log : List (Sample × Nat)) : Prop where
  samples : q.samples = total log
  /-- A slice is open exactly if a candidate for its key survives. -/
  isOpen : ∀ key, (∃ s ∈ q.slices, s.key = key) ↔ scope.survivors before key log ≠ []
  /-- Its invariants are the survivors, in the order of the candidates. -/
  survivors : ∀ s ∈ q.slices, s.entries.map SliceEntry.inv = scope.survivors before s.key log
  /-- It counts the samples with and without all its variables. -/
  counts : ∀ s ∈ q.slices, s.samples = total (before.catalog.tuples s.key log) ∧
    s.samples + s.missing = q.samples
  /-- Each survivor has accepted all of the former, if candidates are fresh, as those of the kinds
  are (`Factories.makeFresh_ofKinds`). -/
  accepted : scope.factories.MakeFresh → ∀ s ∈ q.slices, ∀ e ∈ s.entries, e.inv.samples = s.samples
  /-- What a slice feeds of a sample are the values of all its variables. Where one of them is
  missing, its invariants stay as they are. -/
  fed : ∀ (s : Slice), ∀ x ∈ log, s.FeedsWhole before.catalog x.1 x.2
  /-- So what the survivors were fed has a value for each variable. -/
  complete : ∀ key, ∀ x ∈ before.catalog.tuples key log, ∃ (s : Sample) (rs : List Reading),
    (s, x.2) ∈ log ∧ key.map (before.catalog.reading? s) = rs.map some ∧
      x.1.values = rs.map Reading.value ∧ x.1.state ≠ .missing

theorem Scope.mem_factories_candidates {scope : Scope} {p : Point} {min : Nat} {key : List Nat}
    {inv : Invariant} (h : inv ∈ scope.candidates p min key) :
    inv ∈ scope.factories.candidates (p.catalog.vars? key) := by
  unfold candidates at h
  split at h
  · exact h
  · simp at h

theorem Scope.isFresh_of_mem_candidates {scope : Scope} (hfresh : scope.factories.MakeFresh)
    {p : Point} {min : Nat} {key : List Nat} {inv : Invariant}
    (h : inv ∈ scope.candidates p min key) : inv.IsFresh :=
  hfresh _ inv (mem_factories_candidates h)

end Specification

/-! ## Tuples -/

section Tuples

variable {c : Catalog} {key : List Nat}

theorem ModState.combine_ne_missing {a b : ModState} (ha : a ≠ .missing) (hb : b ≠ .missing) :
    a.combine b ≠ .missing := by
  cases a <;> cases b <;> simp_all [ModState.combine]

theorem Reading.state_ne_missing (r : Reading) : r.state ≠ .missing := by
  unfold Reading.state
  split <;> simp

/-- Readings taken together are not missing. -/
theorem Tuple.state_ofReadings (rs : List Reading) : (Tuple.ofReadings rs).state ≠ .missing := by
  unfold Tuple.ofReadings
  simp only
  suffices h : ∀ acc : ModState, acc ≠ .missing →
      rs.foldl (fun acc r => acc.combine r.state) acc ≠ .missing from h _ (by simp)
  induction rs with
  | nil => exact fun acc h => h
  | cons r rs ih =>
    exact fun acc h => ih _ (ModState.combine_ne_missing h r.state_ne_missing)

theorem map_of_mapM {α β : Type} {f : α → Option β} :
    ∀ {l : List α} {bs : List β}, l.mapM f = some bs → l.map f = bs.map some
  | [], bs, h => by
    obtain rfl : [] = bs := by simpa using h
    rfl
  | a :: l, bs, h => by
    rw [List.mapM_cons] at h
    obtain ⟨b, hb, h⟩ := Option.bind_eq_some_iff.mp h
    obtain ⟨cs, hcs, h⟩ := Option.bind_eq_some_iff.mp h
    cases h
    rw [List.map_cons, List.map_cons, hb, map_of_mapM hcs]

theorem exists_of_mapM_eq_none {α β : Type} {f : α → Option β} :
    ∀ {l : List α}, l.mapM f = none → ∃ a ∈ l, f a = none
  | [], h => by simp at h
  | a :: l, h => by
    cases ha : f a with
    | none => exact ⟨a, List.mem_cons_self, ha⟩
    | some b =>
      cases hl : l.mapM f with
      | none =>
        obtain ⟨a', ha', hnone⟩ := exists_of_mapM_eq_none hl
        exact ⟨a', List.mem_cons_of_mem a ha', hnone⟩
      | some bs => simp [List.mapM_cons, ha, hl] at h

theorem Catalog.project?_eq_some {s : Sample} {t : Tuple} (h : c.project? key s = some t) :
    ∃ rs, key.map (c.reading? s) = rs.map some ∧ t = Tuple.ofReadings rs := by
  obtain ⟨rs, hrs, rfl⟩ := Option.map_eq_some_iff.mp h
  exact ⟨rs, map_of_mapM hrs, rfl⟩

theorem Catalog.mem_tuples {log : List (Sample × Nat)} {x : Tuple × Nat} :
    x ∈ c.tuples key log ↔ ∃ s, (s, x.2) ∈ log ∧ c.project? key s = some x.1 := by
  obtain ⟨t, n⟩ := x
  simp only [tuples, List.mem_filterMap, Option.map_eq_some_iff, Prod.exists, Prod.mk.injEq]
  constructor
  · rintro ⟨s, m, hmem, t', ht, rfl, rfl⟩
    exact ⟨s, hmem, ht⟩
  · rintro ⟨s, hmem, ht⟩
    exact ⟨s, n, hmem, t, ht, rfl, rfl⟩

theorem Catalog.tuples_cons (x : Sample × Nat) (log : List (Sample × Nat)) :
    c.tuples key (x :: log) =
      ((c.project? key x.1).map (·, x.2)).toList ++ c.tuples key log := by
  unfold tuples
  rw [List.filterMap_cons]
  cases c.project? key x.1 <;> rfl

end Tuples

/-! ## Slices -/

section Slices

variable {c : Catalog}

/-- The slice after some samples. -/
def Slice.addAll (c : Catalog) (log : List (Sample × Nat)) (s : Slice) : Slice :=
  log.foldl (fun s x => s.add c x.1 x.2) s

/-- The entry after some tuples. -/
def SliceEntry.addAll? (ts : List (Tuple × Nat)) (e : SliceEntry) : Option SliceEntry :=
  (e.inv.addAll? ts).map fun inv => { e with inv }

theorem SliceEntry.addAll?_cons (t : Tuple × Nat) (ts : List (Tuple × Nat)) (e : SliceEntry) :
    e.addAll? (t :: ts) = (e.add? t.1 t.2).bind (·.addAll? ts) := by
  unfold addAll? add?
  rw [Invariant.addAll?_cons]
  cases e.inv.add? t.1 t.2 <;> rfl

theorem Slice.add_of_some {s : Slice} {x : Sample} {t : Tuple} (h : c.project? s.key x = some t)
    (n : Nat) : s.add c x n =
      { s with samples := s.samples + n, entries := s.entries.filterMap (·.add? t n) } := by
  unfold add
  rw [h]

theorem Slice.add_of_none {s : Slice} {x : Sample} (h : c.project? s.key x = none) (n : Nat) :
    s.add c x n = { s with missing := s.missing + n } := by
  unfold add
  rw [h]

theorem Slice.feedsWhole (s : Slice) (c : Catalog) (x : Sample) (n : Nat) :
    s.FeedsWhole c x n := by
  cases h : c.project? s.key x with
  | none =>
    refine .inr ⟨exists_of_mapM_eq_none (Option.map_eq_none_iff.mp h), ?_⟩
    rw [s.add_of_none h]
  | some t =>
    obtain ⟨rs, hrs, rfl⟩ := Catalog.project?_eq_some h
    refine .inl ⟨rs, hrs, Tuple.state_ofReadings rs, ?_⟩
    rw [s.add_of_some h]

@[simp] theorem Slice.add_key (s : Slice) (x : Sample) (n : Nat) : (s.add c x n).key = s.key := by
  unfold add
  split <;> rfl

/-- A slice without invariants gets none from samples. -/
theorem Slice.isEmpty_add {s : Slice} (h : s.isEmpty) (x : Sample) (n : Nat) :
    (s.add c x n).isEmpty := by
  have hnil : s.entries = [] := List.isEmpty_iff.mp h
  unfold add isEmpty
  split <;> simp [hnil]

theorem Slice.addAll_snoc (log : List (Sample × Nat)) (x : Sample × Nat) (s : Slice) :
    s.addAll c (log ++ [x]) = (s.addAll c log).add c x.1 x.2 := by
  rw [addAll, List.foldl_append]
  rfl

@[simp] theorem Slice.addAll_key (log : List (Sample × Nat)) (s : Slice) :
    (s.addAll c log).key = s.key := by
  induction log generalizing s with
  | nil => rfl
  | cons x log ih => exact (ih _).trans (s.add_key x.1 x.2)

/-- The entries of a slice after some samples. -/
theorem Slice.addAll_entries (log : List (Sample × Nat)) (s : Slice) :
    (s.addAll c log).entries = s.entries.filterMap (·.addAll? (c.tuples s.key log)) := by
  induction log generalizing s with
  | nil => simp [addAll, Catalog.tuples, SliceEntry.addAll?]
  | cons x log ih =>
    have hrest : (s.addAll c (x :: log)).entries = _ := ih (s.add c x.1 x.2)
    rw [hrest, s.add_key, Catalog.tuples_cons]
    cases h : c.project? s.key x.1 with
    | none => rw [s.add_of_none h]; rfl
    | some t =>
      rw [s.add_of_some h, List.filterMap_filterMap]
      congr 1
      funext e
      exact (e.addAll?_cons (t, x.2) _).symm

/-- The counters of a slice after some samples. -/
theorem Slice.addAll_counts (log : List (Sample × Nat)) (s : Slice) :
    (s.addAll c log).samples = s.samples + total (c.tuples s.key log) ∧
      (s.addAll c log).samples + (s.addAll c log).missing =
        s.samples + s.missing + total log := by
  induction log generalizing s with
  | nil => simp [addAll, Catalog.tuples]
  | cons x log ih =>
    obtain ⟨hsamples, hall⟩ := ih (s.add c x.1 x.2)
    have hlog : s.addAll c (x :: log) = (s.add c x.1 x.2).addAll c log := rfl
    rw [hlog, hall, hsamples, s.add_key, Catalog.tuples_cons]
    cases h : c.project? s.key x.1 with
    | none => rw [s.add_of_none h]; simp; omega
    | some t => rw [s.add_of_some h]; simp; omega

end Slices

/-! ## Opening -/

section Opening

theorem mem_insertSlice {s t : Slice} {ts : List Slice} :
    t ∈ insertSlice s ts ↔ t = s ∨ t ∈ ts := by
  induction ts with
  | nil => simp [insertSlice]
  | cons u ts ih =>
    unfold insertSlice
    split
    · simp
    · rw [List.mem_cons, ih, List.mem_cons]
      exact or_left_comm

/-- A slice as it is opened, with its candidates. -/
structure Slice.IsNew (s : Slice) (key : List Nat) (invs : List Invariant) : Prop where
  key : s.key = key
  entries : s.entries.map SliceEntry.inv = invs
  samples : s.samples = 0
  missing : s.missing = 0

/-- A new slice is put in its place. Its invariants have new numbers. -/
theorem Point.exists_openView (p : Point) (key : List Nat) (invs : List Invariant) :
    ∃ new : Slice, new.IsNew key invs ∧ (∀ e ∈ new.entries, p.nextId ≤ e.id) ∧
      (p.openView key invs).slices = insertSlice new p.slices := by
  refine ⟨{ key, entries := invs.mapIdx fun i inv => { id := p.nextId + i, inv } }, ?_,
    fun e he => ?_, rfl⟩
  · refine ⟨rfl, List.ext_getElem? fun i => ?_, rfl, rfl⟩
    simp [Function.comp_def]
  · obtain ⟨i, -, rfl⟩ := List.mem_mapIdx.mp he
    exact Nat.le_add_right _ i

theorem Point.mem_openView (p : Point) (key : List Nat) (invs : List Invariant) :
    ∃ new : Slice, new.IsNew key invs ∧ (∀ e ∈ new.entries, p.nextId ≤ e.id) ∧
      ∀ s, s ∈ (p.openView key invs).slices ↔ s = new ∨ s ∈ p.slices := by
  obtain ⟨new, hnew, hids, hslices⟩ := p.exists_openView key invs
  exact ⟨new, hnew, hids, fun s => hslices ▸ mem_insertSlice⟩

theorem Point.nextId_le_openView (p : Point) (key : List Nat) (invs : List Invariant) :
    p.nextId ≤ (p.openView key invs).nextId := Nat.le_add_right _ _

/-- The slices after some were opened: those from before, and new ones. -/
theorem Point.mem_openAll {s : Slice} :
    ∀ {p : Point} {pending : List (List Nat × List Invariant)},
      s ∈ (p.openAll pending).slices →
        s ∈ p.slices ∨ (∃ x ∈ pending, s.IsNew x.1 x.2) ∧ ∀ e ∈ s.entries, p.nextId ≤ e.id
  | _, [], h => .inl h
  | p, x :: pending, h => by
    obtain ⟨new, hnew, hids, hmem⟩ := p.mem_openView x.1 x.2
    rcases mem_openAll (p := p.openView x.1 x.2) h with hs | ⟨⟨y, hy, hs⟩, hids'⟩
    · rcases (hmem s).mp hs with rfl | hs
      · exact .inr ⟨⟨x, List.mem_cons_self, hnew⟩, hids⟩
      · exact .inl hs
    · exact .inr ⟨⟨y, List.mem_cons_of_mem x hy, hs⟩,
        fun e he => Nat.le_trans (p.nextId_le_openView x.1 x.2) (hids' e he)⟩

theorem Point.slices_subset_openAll {s : Slice} :
    ∀ {p : Point} (pending : List (List Nat × List Invariant)),
      s ∈ p.slices → s ∈ (p.openAll pending).slices
  | _, [], h => h
  | p, x :: pending, h => by
    obtain ⟨new, -, -, hmem⟩ := p.mem_openView x.1 x.2
    exact slices_subset_openAll (p := p.openView x.1 x.2) pending ((hmem s).mpr (.inr h))

/-- There is a new slice for each key. -/
theorem Point.exists_mem_openAll {x : List Nat × List Invariant} :
    ∀ {p : Point} {pending : List (List Nat × List Invariant)}, x ∈ pending →
      ∃ s ∈ (p.openAll pending).slices, s.IsNew x.1 x.2 ∧ ∀ e ∈ s.entries, p.nextId ≤ e.id
  | p, y :: pending, h => by
    rcases List.mem_cons.mp h with rfl | h
    · obtain ⟨new, hnew, hids, hmem⟩ := p.mem_openView x.1 x.2
      have hopen := slices_subset_openAll (p := p.openView x.1 x.2) pending
        ((hmem new).mpr (.inl rfl))
      exact ⟨new, hopen, hnew, hids⟩
    · obtain ⟨s, hs, hnew, hids⟩ := exists_mem_openAll (p := p.openView y.1 y.2) h
      exact ⟨s, hs, hnew, fun e he => Nat.le_trans (p.nextId_le_openView y.1 y.2) (hids e he)⟩

/-- What is opened over a range: a slice for each key that has candidates. -/
theorem Point.mem_pendingViews {p : Point} {scope : Scope} {min : Nat}
    {pending : List (List Nat × List Invariant)}
    (h : p.pendingViews scope.factories scope.controlled
      (p.catalog.viewKeys min p.catalog.size scope.ternary) = .ok pending)
    {key : List Nat} {invs : List Invariant} :
    (key, invs) ∈ pending ↔ invs = scope.candidates p min key ∧ invs ≠ [] := by
  unfold pendingViews at h
  simp only at h
  split at h
  · cases h
  · cases h
    unfold Scope.candidates
    simp only [List.mem_filterMap]
    constructor
    · rintro ⟨key', hkey, hmade⟩
      split at hmade
      · cases hmade
      · next hfree =>
        cases hmade
        simp_all
    · rintro ⟨hinvs, hne⟩
      split at hinvs
      · next hkey =>
        subst hinvs
        exact ⟨key, hkey.1, by simp_all⟩
      · exact absurd hinvs hne

end Opening

/-! ## Points -/

namespace Point

/-- The slices with which a point begins when its views are opened over the whole catalog. -/
structure IsOpening (before : Point) (scope : Scope) (slices : List Slice) : Prop where
  isNew : ∀ s ∈ slices, s.IsNew s.key (scope.candidates before 0 s.key)
  nonempty : ∀ s ∈ slices, s.isEmpty = false
  isOpen : ∀ key, scope.candidates before 0 key ≠ [] → ∃ s ∈ slices, s.key = key

theorem isOpening_of_openViews {p q : Point} {scope : Scope} {limit n : Nat}
    (h : (scope.openViews 0 limit).exec p = (.ok n, q)) (hnone : p.slices = []) :
    IsOpening p scope q.slices := by
  obtain ⟨rfl, -, pending, hpending, rfl⟩ := openViews_ok h
  have hopened {s : Slice} (hs : s ∈ (p.openAll pending).slices) :
      s.IsNew s.key (scope.candidates p 0 s.key) ∧ scope.candidates p 0 s.key ≠ [] := by
    rcases mem_openAll hs with hs | ⟨⟨⟨key, invs⟩, hmem, hnew⟩, -⟩
    · simp [hnone] at hs
    · obtain ⟨rfl, hne⟩ := (mem_pendingViews hpending).mp hmem
      rw [hnew.key]
      exact ⟨hnew, hne⟩
  refine ⟨fun s hs => (hopened hs).1, fun s hs => ?_, fun key hne => ?_⟩
  · obtain ⟨hnew, hne⟩ := hopened hs
    rw [← hnew.entries] at hne
    simpa [Slice.isEmpty] using hne
  · have hmem := (mem_pendingViews hpending).mpr ⟨rfl, hne⟩
    obtain ⟨s, hs, hnew, -⟩ := exists_mem_openAll hmem
    exact ⟨s, hs, hnew.key⟩

/-- Closing empty slices early makes no difference, they would stay empty. -/
theorem slices_feed {q : Point} {slices : List Slice} {f : Slice → Slice}
    (h : q.slices = (slices.map f).filter (!·.isEmpty)) (x : Sample) (n : Nat) :
    (q.feed x n).slices =
      (slices.map fun s => (f s).add q.catalog x n).filter (!·.isEmpty) := by
  unfold feed
  simp only [h]
  clear h
  induction slices with
  | nil => rfl
  | cons s slices ih =>
    by_cases hempty : (f s).isEmpty
    · have hstays := (f s).isEmpty_add (c := q.catalog) hempty x n
      simpa [hempty, hstays] using ih
    · simp only [List.map_cons, List.filter_cons, hempty]
      simp [hempty, List.filter_cons, ih]

/-- The slices that were opened first, fed with all samples, without those that are empty. -/
structure HasFed (q before : Point) (scope : Scope) (log : List (Sample × Nat)) : Prop where
  catalog : q.catalog = before.catalog
  isOpen : q.viewsOpen = true
  samples : q.samples = total log
  slices : ∃ slices, IsOpening before scope slices ∧
    q.slices = (slices.map (Slice.addAll before.catalog log)).filter (!·.isEmpty)

theorem HasFed.still {q r before : Point} {scope : Scope} {log : List (Sample × Nat)}
    (h : q.HasFed before scope log) (k : Still q r) : r.HasFed before scope log where
  catalog := (k.catalog h.isOpen).trans h.catalog
  isOpen := k.viewsOpen.trans h.isOpen
  samples := k.samples.trans h.samples
  slices := by
    rw [k.slices]
    exact h.slices

theorem HasFed.feed {q before : Point} {scope : Scope} {log : List (Sample × Nat)}
    (h : q.HasFed before scope log) (x : Sample × Nat) :
    (q.feed x.1 x.2).HasFed before scope (log ++ [x]) := by
  obtain ⟨slices, hopening, hslices⟩ := h.slices
  refine ⟨h.catalog, h.isOpen, ?_, slices, hopening, ?_⟩
  · have hsamples := h.samples
    simp [Point.feed, total, hsamples]
  · rw [slices_feed hslices, h.catalog]
    simp only [← Slice.addAll_snoc]

theorem snoc_eq_cons_map {α β : Type} {f : α → β} {bs : List β} {b a : β} {as : List α}
    (h : bs ++ [b] = a :: as.map f) :
    (bs = [] ∧ b = a ∧ as = []) ∨
      ∃ as' a', as = as' ++ [a'] ∧ bs = a :: as'.map f ∧ b = f a' := by
  rcases List.eq_nil_or_concat as with rfl | ⟨as', a', rfl⟩
  · have h' : bs ++ [b] = [] ++ [a] := h
    obtain ⟨rfl, hb⟩ := List.append_inj' h' rfl
    exact .inl ⟨rfl, by simpa using hb, rfl⟩
  · have h' : bs ++ [b] = (a :: as'.map f) ++ [f a'] := by simpa using h
    obtain ⟨rfl, hb⟩ := List.append_inj' h' rfl
    exact .inr ⟨as', a', by simp, rfl, by simpa using hb⟩

/-- A point whose views were opened once and that took samples since. -/
theorem Steps.hasFed {p q before : Point} {scope : Scope} {hs : List Happening}
    (hfresh : p.IsFresh) (h : p.Steps hs q) {log : List (Sample × Nat)}
    (hlife : hs = .opened before scope 0 :: log.map Happening.ofSample) :
    q.HasFed before scope log := by
  induction h generalizing log with
  | start => cases hlife
  | still _ k ih => exact (ih hlife).still k
  | step hsteps k ih =>
    rcases snoc_eq_cons_map hlife with ⟨rfl, rfl, rfl⟩ | ⟨log', x, rfl, hlife', rfl⟩
    · have hstill := hsteps.still_of_nil rfl
      cases k with
      | opened hopen =>
        have hopening := isOpening_of_openViews hopen (hstill.slices.trans hfresh.slices)
        obtain ⟨-, -, pending, -, rfl⟩ := openViews_ok hopen
        refine ⟨by simp, rfl, ?_, _, hopening, ?_⟩
        · simp [hstill.samples, hfresh.samples]
        · have hkept (s : Slice) (hs : s ∈ (before.openAll pending).slices) :
              (!s.isEmpty) = true := by rw [hopening.nonempty s hs]; rfl
          have hunfed : (before.openAll pending).slices.map (Slice.addAll before.catalog []) =
              (before.openAll pending).slices := List.map_id _
          rw [hunfed]
          exact (List.filter_eq_self.mpr hkept).symm
    · cases k with
      | took => exact (ih hlife').feed x

section IsBatch

variable {before : Point} {scope : Scope} {s : Slice} (log : List (Sample × Nat))

/-- What is left of a new slice are the survivors for its key. -/
theorem entries_addAll_of_isNew (hnew : s.IsNew s.key (scope.candidates before 0 s.key)) :
    (s.addAll before.catalog log).entries.map SliceEntry.inv =
      scope.survivors before s.key log := by
  have hinv (e : SliceEntry) (ts : List (Tuple × Nat)) :
      (e.addAll? ts).map SliceEntry.inv = e.inv.addAll? ts := by
    unfold SliceEntry.addAll?
    cases e.inv.addAll? ts <;> rfl
  unfold Scope.survivors
  rw [s.addAll_entries log, List.map_filterMap, ← hnew.entries, List.filterMap_map]
  simp only [hinv]
  rfl

/-- Each of them has accepted all tuples at the key. -/
theorem samples_addAll_of_isNew (hmake : scope.factories.MakeFresh)
    (hnew : s.IsNew s.key (scope.candidates before 0 s.key)) {e : SliceEntry}
    (he : e ∈ (s.addAll before.catalog log).entries) :
    e.inv.samples = (s.addAll before.catalog log).samples := by
  rw [(s.addAll_counts log).1, hnew.samples]
  rw [s.addAll_entries log] at he
  obtain ⟨e₀, he₀, hsurvives⟩ := List.mem_filterMap.mp he
  obtain ⟨inv, hinv, rfl⟩ := Option.map_eq_some_iff.mp hsurvives
  have hfresh : e₀.inv.IsFresh := by
    have hmem : e₀.inv ∈ s.entries.map SliceEntry.inv := List.mem_map_of_mem he₀
    rw [hnew.entries] at hmem
    exact Scope.isFresh_of_mem_candidates hmake hmem
  rw [Invariant.samples_addAll? hinv, hfresh.samples]

end IsBatch

/-- The slices of a point that was fed one by one are those of a fold over all samples. -/
theorem HasFed.isBatch {q before : Point} {scope : Scope} {log : List (Sample × Nat)}
    (h : q.HasFed before scope log) : q.IsBatch before scope log := by
  obtain ⟨slices, hopening, hslices⟩ := h.slices
  have hmem {s : Slice} (hs : s ∈ q.slices) :
      ∃ s₀ ∈ slices, s₀.addAll before.catalog log = s ∧ s.entries ≠ [] := by
    rw [hslices, List.mem_filter, List.mem_map] at hs
    obtain ⟨⟨s₀, hs₀, heq⟩, hne⟩ := hs
    exact ⟨s₀, hs₀, heq, by simpa [Slice.isEmpty] using hne⟩
  refine ⟨h.samples, fun key => ⟨?_, fun hne => ?_⟩, fun s hs => ?_, fun s hs => ?_,
    fun hmake s hs e he => ?_, fun s x _ => s.feedsWhole before.catalog x.1 x.2,
    fun key x hx => ?_⟩
  · rintro ⟨s, hs, rfl⟩
    obtain ⟨s₀, hs₀, rfl, hne⟩ := hmem hs
    rw [s₀.addAll_key log, ← entries_addAll_of_isNew log (hopening.isNew s₀ hs₀)]
    simpa using hne
  · have hcandidates : scope.candidates before 0 key ≠ [] := by
      intro hnone
      simp [Scope.survivors, hnone] at hne
    obtain ⟨s₀, hs₀, rfl⟩ := hopening.isOpen key hcandidates
    rw [← entries_addAll_of_isNew log (hopening.isNew s₀ hs₀)] at hne
    refine ⟨s₀.addAll before.catalog log, ?_, s₀.addAll_key log⟩
    rw [hslices, List.mem_filter]
    exact ⟨List.mem_map_of_mem hs₀, by simpa [Slice.isEmpty] using hne⟩
  · obtain ⟨s₀, hs₀, rfl, -⟩ := hmem hs
    rw [s₀.addAll_key log]
    exact entries_addAll_of_isNew log (hopening.isNew s₀ hs₀)
  · obtain ⟨s₀, hs₀, rfl, -⟩ := hmem hs
    obtain ⟨hsamples, hall⟩ := s₀.addAll_counts (c := before.catalog) log
    have hnew := hopening.isNew s₀ hs₀
    rw [hall, hsamples, s₀.addAll_key log, hnew.samples, hnew.missing, h.samples]
    simp
  · obtain ⟨s₀, hs₀, rfl, -⟩ := hmem hs
    exact samples_addAll_of_isNew log hmake (hopening.isNew s₀ hs₀) he
  · obtain ⟨s, hs, hproject⟩ := Catalog.mem_tuples.mp hx
    obtain ⟨rs, hrs, hvalue⟩ := Catalog.project?_eq_some hproject
    refine ⟨s, rs, hs, hrs, by rw [hvalue]; rfl, ?_⟩
    rw [hvalue]
    exact Tuple.state_ofReadings rs

end Point

/-! ## Sessions -/

/-- **Feeding a point sample by sample comes to the same as feeding it all samples at once**: after
every session in which its views were opened over its whole catalog, no later than at its first
sample, and nothing else was done to its slices by hand, its open slices are those for whose keys
some candidate survives all samples the point took, and they hold the survivors. -/
theorem Context.isBatch_after {ctx : Context} (hempty : ctx.points = []) {acts : List Action}
    {id : Nat} {q : Point} (hq : (ctx.after acts).points[id]? = some q) {before : Point}
    {scope : Scope} {log : List (Sample × Nat)}
    (hlife : ctx.happenings acts id =
      .opened before scope 0 :: log.map Happening.ofSample) :
    q.IsBatch before scope log := by
  obtain ⟨p, hfresh, hsteps⟩ := steps_after hempty acts hq
  exact (hsteps.hasFed hfresh hlife).isBatch

/-- Two samples at a point of two variables, in the second of which one is missing. -/
theorem Context.isBatch_after_two_samples :
    let vars : List Declaration := [{ name := "x", type := .int }, { name := "y", type := .int }]
    let log : List (Sample × Nat) :=
      [(⟨[some ⟨.int 3, true⟩, some ⟨.int 4, true⟩]⟩, 2), (⟨[some ⟨.int 5, true⟩, none]⟩, 1)]
    let acts : List Action := .addPoint "P" vars :: log.map fun x => .add 0 x.1 x.2
    ∃ q : Point, (standard.after acts).points[0]? = some q ∧ q.slices.length = 3 ∧
      q.IsBatch (.ofVariables "P" vars) standard.scope log := by
  intro vars log acts
  have hlife : standard.happenings acts 0 =
      .opened (.ofVariables "P" vars) standard.scope 0 :: log.map Happening.ofSample := by
    unfold acts log vars
    rfl
  obtain ⟨q, hq, hlength⟩ : ∃ q : Point, (standard.after acts).points[0]? = some q ∧
      q.slices.length = 3 := by
    unfold acts log vars
    exact ⟨_, rfl, rfl⟩
  exact ⟨q, hq, hlength, isBatch_after rfl hq hlife⟩

end LikelyInvariants
