import LikelyInvariants.Proofs.Keys

/-!
# Which slices are opened over a range

The slices over a range are those whose keys are ascending tuples of one to three positions with a
member in the range, and for three positions those of scalar variables that are compatible
(`Catalog.mem_viewKeys`). Of these a point wants the ones that no controlling point accounts for and
that have candidates (`Scope.Wants`). It opens all of them, each once, and otherwise stays as it is;
or it opens none, because the range does not reach to the end of the catalog or because a slice that
it wants is open already (`Scope.openViews_exact`).
-/

namespace LikelyInvariants

open Update

/-! ## The tuples of a range -/

namespace Catalog

/-- The positions of a slice that may be opened over the range that begins at `min`. -/
structure IsEligible (c : Catalog) (min : Nat) (ternary : Bool) (key : List Nat) : Prop where
  arity : 1 ≤ key.length ∧ key.length ≤ 3
  ascending : key.Pairwise (· < ·)
  lt : ∀ i ∈ key, i < c.size
  inRange : ∃ i ∈ key, min ≤ i
  /-- Three variables are scalar, and the first one is compatible with the two others. -/
  triple : key.length = 3 → ternary ∧ ∃ u v w, c.vars? key = [u, v, w] ∧
    u.type.isArray = false ∧ v.type.isArray = false ∧ w.type.isArray = false ∧
      u.compatible v ∧ u.compatible w

section Tuples

variable {c : Catalog} {min limit i j k : Nat} {ternary : Bool} {key : List Nat}

theorem mem_pairKeys : key ∈ pairKeys min limit ↔
    ∃ i j, key = [i, j] ∧ i < j ∧ min ≤ j ∧ j < limit := by
  simp only [pairKeys, List.mem_flatMap, List.mem_map, mem_positions]
  constructor
  · rintro ⟨i, hi, j, hj, rfl⟩
    exact ⟨i, j, rfl, by omega⟩
  · rintro ⟨i, j, rfl, hj⟩
    exact ⟨i, by omega, j, by omega, rfl⟩

theorem mem_tripleKeys : key ∈ c.tripleKeys min limit ↔
    ∃ i j k u v w, key = [i, j, k] ∧ i < j ∧ j < k ∧ min ≤ k ∧ k < limit ∧
      c.var? i = some u ∧ c.var? j = some v ∧ c.var? k = some w ∧
      u.type.isArray = false ∧ v.type.isArray = false ∧ w.type.isArray = false ∧
      u.compatible v ∧ u.compatible w := by
  simp only [tripleKeys, List.mem_flatMap, List.mem_map, List.mem_filter, mem_scalarsIn,
    Bool.and_eq_true]
  constructor
  · rintro ⟨⟨i, u⟩, ⟨hi, hu, hu'⟩, ⟨j, v⟩, ⟨hj, hv, hv'⟩, ⟨k, w⟩, ⟨⟨hk, hw, hw'⟩, huv, huw⟩, rfl⟩
    exact ⟨i, j, k, u, v, w, rfl, by omega, by omega, by omega, by omega, hu, hv, hw, hu', hv', hw',
      huv, huw⟩
  · rintro ⟨i, j, k, u, v, w, rfl, hij, hjk, hmin, hk, hu, hv, hw, hu', hv', hw', huv, huw⟩
    exact ⟨(i, u), ⟨by omega, hu, hu'⟩, (j, v), ⟨by omega, hv, hv'⟩, (k, w),
      ⟨⟨by omega, hw, hw'⟩, huv, huw⟩, rfl⟩

theorem vars?_cons {v : Variable} (hv : c.var? i = some v) (key : List Nat) :
    c.vars? (i :: key) = v :: c.vars? key := List.filterMap_cons_some hv

theorem exists_var (h : i < c.size) : ∃ v, c.var? i = some v := ⟨_, List.getElem?_eq_getElem h⟩

theorem lt_of_var? {v : Variable} (h : c.var? i = some v) : i < c.size :=
  (List.getElem?_eq_some_iff.mp h).1

theorem isEligible_singleton : c.IsEligible min ternary [i] ↔ min ≤ i ∧ i < c.size := by
  constructor
  · intro h
    exact ⟨by simpa using h.inRange, by simpa using h.lt⟩
  · rintro ⟨hmin, hlt⟩
    exact ⟨by simp, by simp, by simpa using hlt, by simpa using hmin, nofun⟩

theorem isEligible_pair : c.IsEligible min ternary [i, j] ↔ i < j ∧ min ≤ j ∧ j < c.size := by
  constructor
  · intro h
    -- the tuple ascends, so its last member is in the range if any is
    have hij : i < j := by simpa using h.ascending
    have hlt : i < c.size ∧ j < c.size := by simpa using h.lt
    have hmin : min ≤ i ∨ min ≤ j := by simpa using h.inRange
    omega
  · rintro ⟨hij, hmin, hj⟩
    refine ⟨by simp, by simpa using hij, ?_, ⟨j, by simp, hmin⟩, nofun⟩
    simpa using ⟨Nat.lt_trans hij hj, hj⟩

theorem isEligible_triple : c.IsEligible min ternary [i, j, k] ↔
    ternary ∧ [i, j, k] ∈ c.tripleKeys min c.size := by
  rw [mem_tripleKeys]
  constructor
  · intro h
    have hascending : (i < j ∧ i < k) ∧ j < k := by simpa using h.ascending
    have hlt : i < c.size ∧ j < c.size ∧ k < c.size := by simpa using h.lt
    have hmin : min ≤ i ∨ min ≤ j ∨ min ≤ k := by simpa using h.inRange
    obtain ⟨u, hu⟩ := exists_var hlt.1
    obtain ⟨v, hv⟩ := exists_var hlt.2.1
    obtain ⟨w, hw⟩ := exists_var hlt.2.2
    obtain ⟨hternary, u', v', w', hvars, hscalar⟩ := h.triple rfl
    rw [vars?_cons hu, vars?_cons hv, vars?_cons hw] at hvars
    obtain ⟨rfl, rfl, rfl, -⟩ : u = u' ∧ v = v' ∧ w = w' ∧ c.vars? [] = [] := by
      simpa using hvars
    exact ⟨hternary, i, j, k, u, v, w, rfl, by omega, by omega, by omega, by omega, hu, hv, hw,
      hscalar⟩
  · rintro ⟨hternary, i', j', k', u, v, w, hkey, hij, hjk, hmin, hk, hu, hv, hw, hscalar⟩
    obtain ⟨rfl, rfl, rfl⟩ : i = i' ∧ j = j' ∧ k = k' := by simpa using hkey
    refine ⟨by simp, by simpa using ⟨⟨hij, by omega⟩, hjk⟩, ?_, ⟨k, by simp, hmin⟩, fun _ => ?_⟩
    · simpa using ⟨lt_of_var? hu, lt_of_var? hv, hk⟩
    · refine ⟨hternary, u, v, w, ?_, hscalar⟩
      rw [vars?_cons hu, vars?_cons hv, vars?_cons hw]
      rfl

/-- The keys of a range that reaches to the end of the catalog are the eligible ones. -/
theorem mem_viewKeys :
    key ∈ c.viewKeys min c.size ternary ↔ c.IsEligible min ternary key := by
  have htriple : key ∈ (if ternary then c.tripleKeys min c.size else []) ↔
      ternary ∧ key ∈ c.tripleKeys min c.size := by
    split <;> simp [*]
  rw [viewKeys, List.mem_append, List.mem_append, List.mem_map, mem_pairKeys, htriple]
  simp only [mem_positions]
  constructor
  · rintro ((⟨i, hi, rfl⟩ | ⟨i, j, rfl, hij⟩) | ⟨hternary, hkey⟩)
    · exact isEligible_singleton.mpr hi
    · exact isEligible_pair.mpr hij
    · obtain ⟨i, j, k, -, -, -, rfl, -⟩ := mem_tripleKeys.mp hkey
      exact isEligible_triple.mpr ⟨hternary, hkey⟩
  · intro h
    obtain ⟨hpos, hle⟩ := h.arity
    obtain hone | htwo | hthree : key.length = 1 ∨ key.length = 2 ∨ key.length = 3 := by omega
    · obtain ⟨i, rfl⟩ := List.length_eq_one_iff.mp hone
      exact .inl (.inl ⟨i, isEligible_singleton.mp h, rfl⟩)
    · obtain ⟨i, j, rfl⟩ := List.length_eq_two.mp htwo
      exact .inl (.inr ⟨i, j, rfl, isEligible_pair.mp h⟩)
    · obtain ⟨i, j, k, rfl⟩ := List.length_eq_three.mp hthree
      exact .inr (isEligible_triple.mp h)

end Tuples

end Catalog

/-! ## The slices that a point wants -/

/-- A slice is to be opened: no controlling point accounts for it, and some factory makes a
candidate for it. -/
structure Scope.Wants (scope : Scope) (p : Point) (min : Nat) (key : List Nat) : Prop where
  eligible : p.catalog.IsEligible min scope.ternary key
  free : scope.controlled p key = false
  candidates : scope.factories.candidates (p.catalog.vars? key) ≠ []

def Point.IsOpenAt (p : Point) (key : List Nat) : Prop := ∃ s ∈ p.slices, s.key = key

/-- What a point is after the slices that it wants were opened. -/
structure Scope.Opens (scope : Scope) (p : Point) (min : Nat) (opened : List Slice) (q : Point) :
    Prop where
  nodup : (opened.map Slice.key).Nodup
  wanted : ∀ key, (∃ s ∈ opened, s.key = key) ↔ scope.Wants p min key
  isNew : ∀ s ∈ opened, s.IsNew s.key (scope.factories.candidates (p.catalog.vars? s.key))
  /-- The slices that were open are as they were, and in the same order. -/
  kept : p.slices.Sublist q.slices
  slices : q.slices.Perm (opened ++ p.slices)
  /-- Nothing else changes, but numbers of invariants are used up. -/
  rest : q = { p with slices := q.slices, nextId := q.nextId, viewsOpen := true }

namespace Point

variable {scope : Scope} {p : Point} {min : Nat} {key : List Nat}

/-- What is opened over a range: a slice for each key that is wanted, with its candidates. -/
theorem mem_pending_iff {pending : List (List Nat × List Invariant)} {invs : List Invariant}
    (h : p.pendingViews scope.factories scope.controlled
      (p.catalog.viewKeys min p.catalog.size scope.ternary) = .ok pending) :
    (key, invs) ∈ pending ↔
      scope.Wants p min key ∧ invs = scope.factories.candidates (p.catalog.vars? key) := by
  rw [mem_pendingViews h]
  unfold Scope.candidates
  split
  · next hkey =>
    have heligible := Catalog.mem_viewKeys.mp hkey.1
    constructor
    · rintro ⟨rfl, hne⟩
      exact ⟨⟨heligible, by simpa using hkey.2, hne⟩, rfl⟩
    · rintro ⟨hwants, rfl⟩
      exact ⟨rfl, hwants.candidates⟩
  · next hkey =>
    refine iff_of_false (fun hnone => hnone.2 hnone.1) fun hwanted => hkey ⟨?_, ?_⟩
    · exact Catalog.mem_viewKeys.mpr hwanted.1.eligible
    · rw [hwanted.1.free]
      rfl

/-- Opening is refused because of a slice that is wanted and open. -/
theorem pendingViews_error {e : Error} (h : p.pendingViews scope.factories scope.controlled
    (p.catalog.viewKeys min p.catalog.size scope.ternary) = .error e) :
    ∃ key, scope.Wants p min key ∧ p.IsOpenAt key ∧ e = .duplicateSlice p.name key := by
  unfold pendingViews at h
  dsimp only at h
  split at h
  · next key invs hfound =>
    cases h
    obtain ⟨key', hkey, hmade⟩ := List.mem_filterMap.mp (List.mem_of_find?_eq_some hfound)
    split at hmade
    · cases hmade
    next hfree =>
    cases hmade
    rw [Bool.or_eq_true, not_or, Bool.not_eq_true] at hfree
    have hopen : (p.slice? key).isSome := by simpa using List.find?_some hfound
    rw [slice?, List.find?_isSome] at hopen
    exact ⟨key, ⟨Catalog.mem_viewKeys.mp hkey, hfree.1, by simpa using hfree.2⟩,
      by simpa [IsOpenAt] using hopen, rfl⟩
  · cases h

theorem sublist_insertSlice (s : Slice) (ts : List Slice) : ts.Sublist (insertSlice s ts) := by
  induction ts with
  | nil => exact List.nil_sublist _
  | cons t ts ih =>
    unfold insertSlice
    split
    · exact List.sublist_cons_self s _
    · exact ih.cons_cons t

theorem exists_opened (p : Point) (pending : List (List Nat × List Invariant)) :
    ∃ opened : List Slice, opened.map Slice.key = pending.map Prod.fst ∧
      (∀ s ∈ opened, ∃ x ∈ pending, s.IsNew x.1 x.2) ∧
      p.slices.Sublist (p.openAll pending).slices ∧
      (p.openAll pending).slices.Perm (opened ++ p.slices) := by
  induction pending generalizing p with
  | nil => exact ⟨[], rfl, by simp, .refl _, .refl _⟩
  | cons x pending ih =>
    obtain ⟨new, hnew, -, hslices⟩ := p.exists_openView x.1 x.2
    obtain ⟨opened, hkeys, hopened, hsub, hperm⟩ := ih (p.openView x.1 x.2)
    rw [hslices] at hsub hperm
    refine ⟨new :: opened, ?_, fun s hs => ?_, (sublist_insertSlice _ _).trans hsub, ?_⟩
    · rw [List.map_cons, List.map_cons, hnew.key, hkeys]
    · rcases List.mem_cons.mp hs with rfl | hs
      · exact ⟨x, List.mem_cons_self, hnew⟩
      · obtain ⟨y, hy, hnew⟩ := hopened s hs
        exact ⟨y, List.mem_cons_of_mem x hy, hnew⟩
    · have hlast := (perm_insertSlice new p.slices).append_left opened
      exact (hperm.trans hlast).trans List.perm_middle

theorem openAll_eq (p : Point) (pending : List (List Nat × List Invariant)) : p.openAll pending =
    { p with slices := (p.openAll pending).slices, nextId := (p.openAll pending).nextId } := by
  induction pending generalizing p with
  | nil => rfl
  | cons x pending ih => exact ih (p.openView x.1 x.2)

/-- If none of the slices that a point wants is open, all of them are opened. -/
theorem opens_openAll {pending : List (List Nat × List Invariant)}
    (h : p.pendingViews scope.factories scope.controlled
      (p.catalog.viewKeys min p.catalog.size scope.ternary) = .ok pending) :
    ∃ opened : List Slice, opened.length = pending.length ∧
      scope.Opens p min opened { p.openAll pending with viewsOpen := true } := by
  obtain ⟨opened, hkeys, hopened, hsub, hperm⟩ := p.exists_opened pending
  have hlength : opened.length = pending.length := by
    rw [← List.length_map, hkeys, List.length_map]
  refine ⟨opened, hlength, ?nodup, ?wanted, ?isNew, hsub, hperm, ?rest⟩
  case nodup =>
    rw [hkeys]
    exact (p.catalog.nodup_viewKeys _ _ _).sublist (pendingViews_ok h).1
  case wanted =>
    intro key
    rw [← List.mem_map, hkeys, List.mem_map]
    constructor
    · rintro ⟨⟨key, invs⟩, hmem, rfl⟩
      exact ((mem_pending_iff h).mp hmem).1
    · intro hwants
      exact ⟨(key, _), (mem_pending_iff h).mpr ⟨hwants, rfl⟩, rfl⟩
  case isNew =>
    intro s hs
    obtain ⟨⟨key, invs⟩, hmem, hnew⟩ := hopened s hs
    rw [((mem_pending_iff h).mp hmem).2] at hnew
    rwa [hnew.key]
  case rest => rw [p.openAll_eq pending]

/-- Where the range does not reach to the end of the catalog, nothing is opened. -/
theorem exec_openViews_of_partial {limit : Nat} (h : limit ≠ p.catalog.size ∨ limit < min) :
    (scope.openViews min limit).exec p =
      (.error (.partialInstantiation p.name min limit p.catalog.size), p) := by
  rw [Scope.openViews, openViews]
  simp [exec_bind, h]

/-- Over a range to the end of the catalog the slices are opened unless one of them is open. -/
theorem exec_openViews_of_le (h : min ≤ p.catalog.size) :
    (scope.openViews min p.catalog.size).exec p =
      match p.pendingViews scope.factories scope.controlled
        (p.catalog.viewKeys min p.catalog.size scope.ternary) with
      | .error e => (.error e, p)
      | .ok pending => (.ok pending.length, { p.openAll pending with viewsOpen := true }) := by
  have hrange : ¬(p.catalog.size ≠ p.catalog.size ∨ p.catalog.size < min) := by omega
  rw [Scope.openViews, openViews]
  simp only [exec_bind, exec_get, if_neg hrange]
  split
  · next hempty =>
    rw [hempty, Catalog.viewKeys_self]
    rfl
  · simp only [exec_bind, exec_lift]
    cases p.pendingViews scope.factories scope.controlled
      (p.catalog.viewKeys min p.catalog.size scope.ternary) <;> rfl

/-- Either a slice that is wanted is open, and nothing is opened, or everything is. -/
theorem exec_openViews_cases (scope : Scope) (p : Point) (h : min ≤ p.catalog.size) :
    (∃ key, scope.Wants p min key ∧ p.IsOpenAt key ∧
      (scope.openViews min p.catalog.size).exec p = (.error (.duplicateSlice p.name key), p)) ∨
    (¬∃ key, scope.Wants p min key ∧ p.IsOpenAt key) ∧
      ∃ opened q, (scope.openViews min p.catalog.size).exec p = (.ok opened.length, q) ∧
        scope.Opens p min opened q := by
  rw [exec_openViews_of_le h]
  cases hpending : p.pendingViews scope.factories scope.controlled
    (p.catalog.viewKeys min p.catalog.size scope.ternary) with
  | error e =>
    obtain ⟨key, hwants, hopen, rfl⟩ := pendingViews_error hpending
    exact .inl ⟨key, hwants, hopen, rfl⟩
  | ok pending =>
    refine .inr ⟨?_, ?_⟩
    · rintro ⟨key, hwants, s, hs, hkey⟩
      have hmem := (mem_pending_iff hpending).mpr ⟨hwants, rfl⟩
      exact (pendingViews_ok hpending).2 _ hmem s hs hkey
    · obtain ⟨opened, hlength, hopens⟩ := opens_openAll hpending
      exact ⟨opened, _, by rw [hlength], hopens⟩

end Point

/-- **A point opens all the slices that it wants, each once, or it stays as it is.** It refuses if
the range does not reach to the end of its catalog or begins behind it, and else just if a slice
that it wants is open already. Which slices it wants is said without the order in which they are
tried. The slices that were open before are left alone, and the number of new ones is given. -/
theorem Scope.openViews_exact (scope : Scope) (p : Point) (min limit : Nat) :
    (limit ≠ p.catalog.size ∨ limit < min → (scope.openViews min limit).exec p =
      (.error (.partialInstantiation p.name min limit p.catalog.size), p)) ∧
    (limit = p.catalog.size → min ≤ limit → (∃ key, scope.Wants p min key ∧ p.IsOpenAt key) →
      ∃ key, scope.Wants p min key ∧ p.IsOpenAt key ∧
        (scope.openViews min limit).exec p = (.error (.duplicateSlice p.name key), p)) ∧
    (limit = p.catalog.size → min ≤ limit → (¬∃ key, scope.Wants p min key ∧ p.IsOpenAt key) →
      ∃ opened q, (scope.openViews min limit).exec p = (.ok opened.length, q) ∧
        scope.Opens p min opened q) := by
  refine ⟨Point.exec_openViews_of_partial, ?_, ?_⟩
  · rintro rfl hmin hopen
    rcases Point.exec_openViews_cases scope p hmin with hrefused | ⟨hnone, -⟩
    · exact hrefused
    · exact absurd hopen hnone
  · rintro rfl hmin hnone
    rcases Point.exec_openViews_cases scope p hmin with ⟨key, hwants, hopen, -⟩ | ⟨-, hopened⟩
    · exact absurd ⟨key, hwants, hopen⟩ hnone
    · exact hopened

/-- Of two variables the first one has its slice already. Over the range of the second one the pair
of them is opened too. -/
theorem Scope.openViews_exact_second :
    let p : Point := { Point.ofVariables "P" [{ name := "x", type := .int },
      { name := "y", type := .int }] with slices := [{ key := [0], samples := 3 }] }
    ∃ opened q, (Context.standard.scope.openViews 1 2).exec p = (.ok opened.length, q) ∧
      Context.standard.scope.Opens p 1 opened q ∧ (∃ s ∈ opened, s.key = [0, 1]) ∧
      { key := [0], samples := 3 } ∈ q.slices := by
  intro p
  have hnone : ¬∃ key, Context.standard.scope.Wants p 1 key ∧ p.IsOpenAt key := by
    rintro ⟨key, hwants, s, hs, rfl⟩
    obtain rfl := List.mem_singleton.mp hs
    obtain ⟨i, hi, hle⟩ := hwants.eligible.inRange
    obtain rfl := List.mem_singleton.mp hi
    exact absurd hle (by decide)
  have hpair : Context.standard.scope.Wants p 1 [0, 1] := by
    refine ⟨Catalog.isEligible_pair.mpr ⟨by decide, by decide, by decide⟩, by decide +kernel, ?_⟩
    decide +kernel
  obtain ⟨opened, q, hexec, hopens⟩ :=
    (Scope.openViews_exact Context.standard.scope p 1 2).2.2 rfl (by decide) hnone
  exact ⟨opened, q, hexec, hopens, (hopens.wanted [0, 1]).mpr hpair,
    hopens.kept.subset List.mem_cons_self⟩

end LikelyInvariants
