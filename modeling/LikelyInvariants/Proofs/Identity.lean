import LikelyInvariants.Proofs.Intake
import LikelyInvariants.Proofs.Point.Falsification
import LikelyInvariants.Proofs.Point.Views

/-!
# Identity of slices and invariants

A slice is known by its key and an invariant by its number. Keys are ascending tuples of one to three
positions, however a slice is opened (`Point.Steps.canonical`), so sorting any order of such a tuple
gives the key back, and whoever names the variables of a slice reaches this slice
(`Point.exec_openSlice_of_perm`). A number is given to one invariant. What has an old number after a
step had it before, over the same key, and a sample may have been fed to it in between
(`Point.Step.traced`). So a number finds either the invariant it was given to, as the samples taken
since have left it, or nothing (`Context.keyed_and_numbered`).
-/

namespace LikelyInvariants

open Update

/-! ## Keys -/

section Keys

/-- An ascending tuple of one to three positions. -/
structure IsCanonical (key : List Nat) : Prop where
  ascending : key.Pairwise (· < ·)
  arity : 1 ≤ key.length ∧ key.length ≤ 3

/-- Sorting any order of an ascending tuple gives the tuple. -/
theorem mergeSort_of_perm {vars key : List Nat} (h : vars.Perm key)
    (hascending : key.Pairwise (· < ·)) : vars.mergeSort = key := by
  have hne : vars.Pairwise (· ≠ ·) := h.symm.pairwise (hascending.imp Nat.ne_of_lt) Ne.symm
  exact List.Perm.eq_of_pairwise (fun _ _ _ _ hlt hgt => absurd hlt (Nat.lt_asymm hgt))
    (pairwise_lt_mergeSort id hne) hascending ((List.mergeSort_perm vars _).trans h)

variable {p : Point} {vars key : List Nat}

/-- The variables of a slice are named by any order of its key. -/
theorem Point.key_eq_ok_iff : p.key vars = .ok key ↔
    vars.mergeSort = key ∧ IsCanonical key ∧ ∀ i ∈ key, i < p.catalog.size := by
  unfold Point.key
  dsimp only
  split
  · next hvalid =>
    obtain ⟨hone, hthree, hnodup, hlt⟩ := hvalid
    have hascending : vars.mergeSort.Pairwise (· < ·) :=
      pairwise_lt_mergeSort id ((List.mergeSort_perm vars _).nodup_iff.mp hnodup)
    rw [Except.ok.injEq]
    constructor
    · rintro rfl
      exact ⟨rfl, ⟨hascending, hone, hthree⟩, by simpa using hlt⟩
    · exact fun h => h.1
  · next hinvalid =>
    refine iff_of_false nofun ?_
    rintro ⟨rfl, hkey, hlt⟩
    exact hinvalid ⟨hkey.arity.1, hkey.arity.2, hkey.ascending.imp Nat.ne_of_lt, by simpa using hlt⟩

end Keys

namespace Point

/-! ## Requests by any order of a key -/

section Requests

variable {p q : Point} {vars key : List Nat} {inv : Invariant} {s : Slice} {n : Nat}

theorem exec_openSlice_of_slice? (hkey : p.key vars = .ok key) (hs : p.slice? key = some s) :
    (openSlice vars).exec p = (.ok s, p) := by
  simp [openSlice, exec_bind, hkey, hs]

theorem exec_openSlice_of_none (hkey : p.key vars = .ok key) (hs : p.slice? key = none) :
    (openSlice vars).exec p = (.ok { key }, { p with slices := insertSlice { key } p.slices }) := by
  simp [openSlice, exec_bind, hkey, hs]

theorem exec_removeSlice_of_slice? (hkey : p.key vars = .ok key) (hs : p.slice? key = some s) :
    (removeSlice vars).exec p = (.ok s, { p with slices := p.slices.filter (·.key ≠ key) }) := by
  simp [removeSlice, exec_bind, hkey, hs]

theorem key_ok_of_openSlice (h : (openSlice vars).exec p = (.ok s, q)) :
    ∃ key, p.key vars = .ok key := by
  simp only [openSlice, exec_bind, exec_get, exec_lift] at h
  cases hkey : p.key vars with
  | error e => simp [hkey] at h
  | ok key => exact ⟨key, rfl⟩

/-- An invariant is only added if its variables can be those of a slice. It gets the next number. -/
theorem key_ok_of_addInvariant (h : (addInvariant vars inv).exec p = (.ok n, q)) :
    (∃ key, p.key vars = .ok key) ∧ n = p.nextId ∧ q.nextId = p.nextId + 1 := by
  obtain ⟨slices, -, rfl⟩ := addInvariant_ok h
  simp only [addInvariant, exec_bind, exec_get, exec_set] at h
  rcases hopen : (openSlice vars).exec { p with nextId := p.nextId + 1 } with ⟨e | s, r⟩ <;>
    rw [hopen] at h
  · simp at h
  · simp only [exec_modify, exec_pure, Prod.mk.injEq, Except.ok.injEq] at h
    obtain ⟨key, hkey⟩ := key_ok_of_openSlice hopen
    exact ⟨⟨key, hkey⟩, h.1.symm, rfl⟩

end Requests

/-! ## Keys of slices -/

section Canonical

variable {p q : Point}

/-- The slices of the point have ascending keys of one to three positions. -/
def Canonical (p : Point) : Prop := ∀ s ∈ p.slices, IsCanonical s.key

theorem Canonical.insertSlice {key : List Nat} {slices : List Slice}
    (h : ∀ s ∈ slices, IsCanonical s.key) (hkey : IsCanonical key) :
    ∀ s ∈ insertSlice { key } slices, IsCanonical s.key := by
  intro s hs
  rcases mem_insertSlice.mp hs with rfl | hs
  · exact hkey
  · exact h s hs

theorem Step.canonical {h : Happening} (k : Step p h q) (hp : p.Canonical) : q.Canonical := by
  cases k with
  | opened h =>
    obtain ⟨rfl, -, pending, hpending, rfl⟩ := openViews_ok h
    intro s hs
    rcases mem_openAll hs with hs | ⟨⟨x, hx, hnew⟩, -⟩
    · exact hp s hs
    · have hkey := (pendingViews_ok hpending).1.subset (List.mem_map_of_mem hx)
      have heligible := Catalog.mem_viewKeys.mp hkey
      rw [hnew.key]
      exact ⟨heligible.ascending, heligible.arity⟩
  | took =>
    intro s hs
    obtain ⟨t, ht, rfl⟩ := List.mem_map.mp (List.mem_filter.mp hs).1
    have hkey := hp t ht
    split
    · exact hkey
    · rwa [Slice.add_key]
  | filled h =>
    obtain ⟨⟨key, hkey⟩, -⟩ := key_ok_of_addInvariant h
    obtain ⟨rfl, hcanonical, -⟩ := key_eq_ok_iff.mp hkey
    obtain ⟨slices, hslices, rfl⟩ := addInvariant_ok h
    intro s hs
    obtain ⟨u, hu, rfl⟩ := List.mem_map.mp hs
    have hold : IsCanonical u.key := by
      rcases hslices with rfl | rfl
      · exact hp u hu
      · exact Canonical.insertSlice hp hcanonical u hu
    split <;> exact hold
  | sliceOpened h =>
    obtain ⟨key, hkey⟩ := key_ok_of_openSlice h
    cases hslice : p.slice? key with
    | some t =>
      rw [exec_openSlice_of_slice? hkey hslice] at h
      obtain rfl := (Prod.mk.inj h).2
      exact hp
    | none =>
      rw [exec_openSlice_of_none hkey hslice] at h
      obtain rfl := (Prod.mk.inj h).2
      exact Canonical.insertSlice hp (key_eq_ok_iff.mp hkey).2.1
  | sliceRemoved h =>
    obtain ⟨key, rfl⟩ := removeSlice_ok h
    exact fun s hs => hp s (List.mem_filter.mp hs).1

/-- However slices are opened, their keys are ascending. -/
theorem Steps.canonical {hs : List Happening} (h : p.Steps hs q) (hfresh : p.IsFresh) :
    q.Canonical := by
  induction h with
  | start => simp [Canonical, hfresh.slices]
  | still _ k ih => exact fun s hs => ih s (k.slices ▸ hs)
  | step _ k ih => exact k.canonical ih

end Canonical

/-! ## Numbers -/

section Numbers

variable {p q : Point} {key : List Nat} {e : SliceEntry} {n : Nat} {inv : Invariant}

/-- An invariant with its number is in the slice over a key. -/
def Has (p : Point) (key : List Nat) (e : SliceEntry) : Prop :=
  ∃ s ∈ p.slices, s.key = key ∧ e ∈ s.entries

theorem Numbered.invariant?_eq_some_iff (h : p.Numbered) :
    p.invariant? n = some (key, inv) ↔ p.Has key ⟨n, inv⟩ := by
  constructor
  · intro hfound
    obtain ⟨s, hs, hfound⟩ := List.exists_of_findSome?_eq_some hfound
    obtain ⟨e, he, heq⟩ := Option.map_eq_some_iff.mp hfound
    obtain ⟨rfl, rfl⟩ := Prod.mk.inj heq
    obtain rfl : e.id = n := by simpa using List.find?_some he
    exact ⟨s, hs, rfl, List.mem_of_find?_eq_some he⟩
  · rintro ⟨s, hs, rfl, he⟩
    exact invariant?_of_mem h hs he

theorem Has.of_insertSlice {slices : List Slice} {k : List Nat}
    (h : ∃ s ∈ insertSlice { key := k } slices, s.key = key ∧ e ∈ s.entries) :
    ∃ s ∈ slices, s.key = key ∧ e ∈ s.entries := by
  obtain ⟨s, hs, hkey, he⟩ := h
  rcases mem_insertSlice.mp hs with rfl | hs
  · cases he
  · exact ⟨s, hs, hkey, he⟩

/-- An invariant that is added is found by its number. -/
theorem has_of_addInvariant {vars : List Nat} (h : (addInvariant vars inv).exec p = (.ok n, q)) :
    q.Has vars.mergeSort ⟨n, inv⟩ := by
  obtain ⟨⟨key, hkey⟩, rfl, -⟩ := key_ok_of_addInvariant h
  have hkey' : ({ p with nextId := p.nextId + 1 } : Point).key vars = .ok key := hkey
  obtain ⟨rfl, -⟩ := key_eq_ok_iff.mp hkey
  -- the slice that is filled was open, or it was opened for the invariant
  have hfilled {slices : List Slice} {s : Slice} (hs : s ∈ slices) (hsame : s.key = vars.mergeSort)
      (hq : q.slices = slices.map fun t => if t.key = vars.mergeSort then
        { t with entries := t.entries ++ [{ id := p.nextId, inv }] } else t) :
      q.Has vars.mergeSort ⟨p.nextId, inv⟩ := by
    refine ⟨_, hq ▸ List.mem_map_of_mem hs, ?_⟩
    rw [if_pos hsame]
    exact ⟨hsame, List.mem_append_right _ List.mem_cons_self⟩
  simp only [addInvariant, exec_bind, exec_get, exec_set] at h
  cases hslice : ({ p with nextId := p.nextId + 1 } : Point).slice? vars.mergeSort with
  | some s =>
    have hsame : s.key = vars.mergeSort := by simpa using List.find?_some hslice
    rw [exec_openSlice_of_slice? hkey' hslice] at h
    simp only [exec_modify, exec_pure, hsame, Prod.mk.injEq] at h
    obtain ⟨-, rfl⟩ := h
    exact hfilled (List.mem_of_find?_eq_some hslice) hsame rfl
  | none =>
    rw [exec_openSlice_of_none hkey' hslice] at h
    simp only [exec_modify, exec_pure, Prod.mk.injEq] at h
    obtain ⟨-, rfl⟩ := h
    have hnew : ({ key := vars.mergeSort } : Slice) ∈
        insertSlice { key := vars.mergeSort } p.slices := mem_insertSlice.mpr (.inl rfl)
    exact hfilled hnew rfl rfl

/-- What has an old number after a step had it before, over the same key. A sample that was taken
was fed to it. -/
theorem Step.traced {h : Happening} (k : Step p h q) (he : q.Has key e) (hold : e.id < p.nextId) :
    ∃ inv, p.Has key ⟨e.id, inv⟩ ∧
      inv.addAll? (p.catalog.tuples key (taken [h])) = some e.inv := by
  cases k with
  | opened h =>
    obtain ⟨rfl, -, pending, hpending, rfl⟩ := openViews_ok h
    obtain ⟨s, hs, hkey, he⟩ := he
    rcases mem_openAll hs with hs | ⟨-, hids⟩
    · exact ⟨e.inv, ⟨s, hs, hkey, he⟩, rfl⟩
    · exact absurd (hids e he) (Nat.not_le.mpr hold)
  | @took s count =>
    obtain ⟨t', ht', rfl, he⟩ := he
    obtain ⟨t, ht, rfl⟩ := List.mem_map.mp (List.mem_filter.mp ht').1
    split at he
    · next hempty => simp [List.isEmpty_iff.mp hempty] at he
    · next hne =>
      rw [if_neg hne, Slice.add_key]
      -- the invariants of the slice were fed if the sample has all its variables
      cases hproject : p.catalog.project? t.key s with
      | none =>
        rw [t.add_of_none hproject] at he
        exact ⟨e.inv, ⟨t, ht, rfl, he⟩, by simp [Catalog.tuples, taken, hproject]⟩
      | some x =>
        rw [t.add_of_some hproject] at he
        obtain ⟨f, hf, hadd⟩ := List.mem_filterMap.mp he
        obtain ⟨inv, hinv, rfl⟩ := Option.map_eq_some_iff.mp hadd
        refine ⟨f.inv, ⟨t, ht, rfl, hf⟩, ?_⟩
        simp [Catalog.tuples, taken, hproject, Invariant.addAll?_cons, hinv]
  | @filled _ vars inv _ h =>
    obtain ⟨slices, hslices, rfl⟩ := addInvariant_ok h
    obtain ⟨t', ht', rfl, he⟩ := he
    obtain ⟨t, ht, rfl⟩ := List.mem_map.mp ht'
    have hkey : (if t.key = vars.mergeSort then
        { t with entries := t.entries ++ [{ id := p.nextId, inv }] } else t).key = t.key := by
      split <;> rfl
    have hentry : e ∈ t.entries := by
      split at he
      · rcases List.mem_append.mp he with he | he
        · exact he
        · obtain rfl := List.mem_singleton.mp he
          exact absurd hold (Nat.lt_irrefl _)
      · exact he
    rw [hkey]
    rcases hslices with rfl | rfl
    · exact ⟨e.inv, ⟨t, ht, rfl, hentry⟩, rfl⟩
    · exact ⟨e.inv, Has.of_insertSlice ⟨t, ht, rfl, hentry⟩, rfl⟩
  | sliceOpened h =>
    obtain rfl | ⟨_, rfl⟩ := openSlice_ok h
    · exact ⟨e.inv, he, rfl⟩
    · exact ⟨e.inv, Has.of_insertSlice he, rfl⟩
  | sliceRemoved h =>
    obtain ⟨_, rfl⟩ := removeSlice_ok h
    obtain ⟨s, hs, hrest⟩ := he
    exact ⟨e.inv, ⟨s, (List.mem_filter.mp hs).1, hrest⟩, rfl⟩

/-- Steps leave the variables of a point as they are. -/
theorem Step.catalog {h : Happening} (k : Step p h q) : q.catalog = p.catalog := by
  cases k with
  | opened h =>
    obtain ⟨-, -, pending, -, rfl⟩ := openViews_ok h
    exact openAll_catalog p pending
  | took => rfl
  | filled h =>
    obtain ⟨_, -, rfl⟩ := addInvariant_ok h
    rfl
  | sliceOpened h => obtain rfl | ⟨_, rfl⟩ := openSlice_ok h <;> rfl
  | sliceRemoved h =>
    obtain ⟨_, rfl⟩ := removeSlice_ok h
    rfl

theorem taken_append (hs ks : List Happening) : taken (hs ++ ks) = taken hs ++ taken ks :=
  List.filterMap_append

/-- While the slices of a point are not open, it has taken no sample. -/
theorem Steps.taken_eq_nil {p₀ : Point} {before hs : List Happening} (h : p.Steps hs q)
    (hfresh : p₀.IsFresh) (hbefore : p₀.Steps before p) (hclosed : q.viewsOpen = false) :
    taken hs = [] := by
  induction h with
  | start => rfl
  | still _ k ih => exact ih (k.viewsOpen ▸ hclosed)
  | @step _ _ r _ hsteps k ih =>
    have hclosed' : r.viewsOpen = false := by
      by_contra hopen
      rw [k.kept.viewsOpen (by simpa using hopen)] at hclosed
      cases hclosed
    rw [taken_append, ih hclosed']
    cases k with
    | took hopen =>
      have hnone := (hbefore.trans hsteps).opensFirst hfresh hclosed'
      rw [hopen hnone] at hclosed'
      cases hclosed'
    | _ => rfl

/-- What has an old number has had it since, over the same key, and the samples that were taken were
fed to it. -/
theorem Steps.traced {p₀ : Point} {before hs : List Happening} (h : p.Steps hs q) (hfresh : p₀.IsFresh)
    (hbefore : p₀.Steps before p) (he : q.Has key e) (hold : e.id < p.nextId) :
    ∃ inv, p.Has key ⟨e.id, inv⟩ ∧
      inv.addAll? (q.catalog.tuples key (taken hs)) = some e.inv := by
  induction h generalizing e with
  | start => exact ⟨e.inv, he, rfl⟩
  | @still _ r q hsteps k ih =>
    have hbefore' : r.Has key e := by
      rwa [Has, ← k.slices]
    obtain ⟨inv, hinv, hadd⟩ := ih hbefore' hold
    refine ⟨inv, hinv, ?_⟩
    -- the variables only change while there is nothing to feed
    by_cases hopen : r.viewsOpen
    · rwa [k.catalog hopen]
    · have hnone := hsteps.taken_eq_nil hfresh hbefore (by simpa using hopen)
      rw [hnone] at hadd ⊢
      exact hadd
  | step hsteps k ih =>
    obtain ⟨inv, hinv, hadd⟩ := k.traced he (Nat.lt_of_lt_of_le hold hsteps.kept.nextId)
    obtain ⟨inv₀, hinv₀, hadd₀⟩ := ih hinv hold
    refine ⟨inv₀, hinv₀, ?_⟩
    rw [k.catalog, taken_append, Catalog.tuples, List.filterMap_append, Invariant.addAll?_append]
    exact Option.bind_eq_some_iff.mpr ⟨inv, hadd₀, hadd⟩

end Numbers

/-! ## Slices by their keys -/

section Lookup

variable {p : Point} {s : Slice} {vars : List Nat}

theorem Keyed.slice?_of_mem (h : p.Keyed) (hs : s ∈ p.slices) : p.slice? s.key = some s := by
  cases hfound : p.slice? s.key with
  | none => simpa using List.find?_eq_none.mp hfound s hs
  | some t =>
    have hkey : t.key = s.key := by simpa using List.find?_some hfound
    rw [List.inj_on_of_nodup_map h.nodup (List.mem_of_find?_eq_some hfound) hs hkey]

/-- Any order of the key of a slice names its variables. -/
theorem Keyed.key_of_perm (h : p.Keyed) (hs : s ∈ p.slices) (hcanonical : IsCanonical s.key)
    (hperm : vars.Perm s.key) : p.key vars = .ok s.key :=
  key_eq_ok_iff.mpr ⟨mergeSort_of_perm hperm hcanonical.ascending, hcanonical, h.lt s hs⟩

end Lookup

end Point

/-! ## Sessions -/

namespace Context

variable {ctx : Context} {id : Nat} {p : Point}

theorem Attained.after (h : ctx.Attained) (acts : List Action) : (ctx.after acts).Attained := by
  obtain ⟨start, before, hempty, rfl⟩ := h
  exact ⟨start, before ++ acts, hempty, List.foldl_append⟩

/-- **Slices are known by their keys and invariants by their numbers.** In every reachable context
the key of an open slice of a point is an ascending tuple of one to three of its variables, and it
finds the slice. No two slices have the same key, and requests that name the variables of a slice in
any order reach this slice. No number occurs twice. An invariant that is added gets a new number,
which finds it. Whatever happens later, a number that was given out finds nothing, or what it found
before, over the same variables and as the samples that the point took since have left it. -/
theorem keyed_and_numbered (h : ctx.Attained) (hp : ctx.points[id]? = some p) :
    (∀ s ∈ p.slices, IsCanonical s.key ∧ (∀ i ∈ s.key, i < p.catalog.size) ∧
      p.slice? s.key = some s) ∧
    (p.slices.map Slice.key).Nodup ∧
    (∀ s ∈ p.slices, ∀ vars : List Nat, vars.Perm s.key →
      p.sliceOfAny? vars = some s ∧ (Point.openSlice vars).exec p = (.ok s, p) ∧
      (Point.removeSlice vars).exec p =
        (.ok s, { p with slices := p.slices.filter (·.key ≠ s.key) })) ∧
    p.ids.Nodup ∧ (∀ n ∈ p.ids, n < p.nextId) ∧
    (∀ vars inv n q, (Point.addInvariant vars inv).exec p = (.ok n, q) →
      p.nextId ≤ n ∧ n < q.nextId ∧ q.invariant? n = some (vars.mergeSort, inv)) ∧
    ∀ acts : List Action, ∃ q, (ctx.after acts).points[id]? = some q ∧ p.nextId ≤ q.nextId ∧
      ∀ n < p.nextId, q.invariant? n = none ∨ ∃ key inv inv', p.invariant? n = some (key, inv) ∧
        q.invariant? n = some (key, inv') ∧
        inv.addAll? (q.catalog.tuples key (taken (ctx.happenings acts id))) = some inv' := by
  obtain ⟨p₀, before, hfresh, hbefore⟩ : ∃ (p₀ : Point) (hs : List Happening), p₀.IsFresh ∧
      p₀.Steps hs p := by
    obtain ⟨start, acts, hempty, rfl⟩ := h
    obtain ⟨p₀, hfresh, hsteps⟩ := steps_after hempty acts hp
    exact ⟨p₀, _, hfresh, hsteps⟩
  have hkeyed : p.Keyed := h.keyed hp
  have hcanonical : p.Canonical := hbefore.canonical hfresh
  refine ⟨fun s hs => ⟨hcanonical s hs, hkeyed.lt s hs, hkeyed.slice?_of_mem hs⟩, hkeyed.nodup,
    fun s hs vars hperm => ?_, hkeyed.numbered.nodup, hkeyed.numbered.lt,
    fun vars inv n q hexec => ?_, fun acts => ?_⟩
  · have hslice := hkeyed.slice?_of_mem hs
    have hkey := hkeyed.key_of_perm hs (hcanonical s hs) hperm
    refine ⟨?_, Point.exec_openSlice_of_slice? hkey hslice,
      Point.exec_removeSlice_of_slice? hkey hslice⟩
    rw [Point.sliceOfAny?, mergeSort_of_perm hperm (hcanonical s hs).ascending, hslice]
  · obtain ⟨-, hn, hnext⟩ := Point.key_ok_of_addInvariant hexec
    have hq : q.Keyed := by
      have hkept := Point.orderly_addInvariant vars inv p hkeyed
      rwa [hexec] at hkept
    exact ⟨Nat.le_of_eq hn.symm, by omega,
      hq.numbered.invariant?_eq_some_iff.mpr (Point.has_of_addInvariant hexec)⟩
  · obtain ⟨q, hq, hsteps⟩ := steps_of_point hp acts
    refine ⟨q, hq, hsteps.kept.nextId, fun n hn => ?_⟩
    cases hfound : q.invariant? n with
    | none => exact .inl rfl
    | some x =>
      obtain ⟨key, inv'⟩ := x
      have hhas := ((h.after acts).keyed hq).numbered.invariant?_eq_some_iff.mp hfound
      obtain ⟨inv, hinv, hadd⟩ := hsteps.traced hfresh hbefore hhas hn
      exact .inr ⟨key, inv, inv', hkeyed.numbered.invariant?_eq_some_iff.mpr hinv, rfl, hadd⟩

/-- A number is used up for a variable that the point does not have. Then its slices are opened. -/
def usedNumber : List Action :=
  [.addPoint "P" [{ name := "x", type := .int }, { name := "y", type := .int }],
    .atPoint 0 (.addInvariant [2] (.bound { side := .lower })), .openViews 0 0 2]

/-- A slice is closed and filled again, and a sample is taken. -/
def filledAgain : List Action :=
  [.atPoint 0 (.removeSlice [0]), .atPoint 0 (.addInvariant [0] (.bound { side := .lower })),
    .add 0 ⟨[some ⟨.int 1, true⟩, some ⟨.int 2, true⟩]⟩ 1]

/-- The variables of the slice over both can be named in either order. The number that was used up
never finds an invariant. -/
theorem keyed_and_numbered_usedNumber :
    let ctx := standard.after usedNumber
    ∃ p q, ctx.points[0]? = some p ∧ (ctx.after filledAgain).points[0]? = some q ∧
      (∃ s ∈ p.slices, p.sliceOfAny? [1, 0] = some s ∧ p.sliceOfAny? [0, 1] = some s) ∧
      0 < p.nextId ∧ q.invariant? 0 = none := by
  intro ctx
  have hattained : ctx.Attained := ⟨_, _, rfl, rfl⟩
  obtain ⟨p, hp, hfields⟩ := Option.map_eq_some_iff.mp
    (show ctx.points[0]?.map (fun p => (p.slices.map Slice.key, decide (0 < p.nextId),
      (p.invariant? 0).isNone)) = some ([[0], [0, 1], [1]], true, true) by decide +kernel)
  obtain ⟨hkeys, hnext, hnone⟩ : p.slices.map Slice.key = [[0], [0, 1], [1]] ∧ 0 < p.nextId ∧
      p.invariant? 0 = none := by simpa using hfields
  obtain ⟨-, -, hreached, -, -, -, hlater⟩ := keyed_and_numbered hattained hp
  obtain ⟨s, hs, hkey⟩ := List.mem_map.mp (show [0, 1] ∈ p.slices.map Slice.key by simp [hkeys])
  obtain ⟨q, hq, -, hkept⟩ := hlater filledAgain
  refine ⟨p, q, hp, hq, ⟨s, hs, (hreached s hs [1, 0] ?_).1, (hreached s hs [0, 1] ?_).1⟩, hnext, ?_⟩
  · exact hkey ▸ .swap 0 1 []
  · exact hkey ▸ .refl _
  · rcases hkept 0 hnext with hq | ⟨key, inv, inv', hp, -⟩
    · exact hq
    · rw [hnone] at hp
      cases hp

end Context

end LikelyInvariants
