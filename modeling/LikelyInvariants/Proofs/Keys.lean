import LikelyInvariants.Proofs.Edges
import LikelyInvariants.Proofs.Evolution
import LikelyInvariants.Proofs.Point.Batch
import LikelyInvariants.Proofs.Point.Numbers
import Mathlib.Data.List.Flatten
import Mathlib.Data.List.Nodup

/-!
# Slices and what identifies them

A point never has two slices over the same variables, every slice is over variables that its point
has, and no two invariants of a point have the same number (`Point.Keyed`). All of this is kept
however a slice comes to be: when the views are opened over a range, which names no key twice, and
when a slice is opened or filled by hand. So it holds of every point that a session leads to
(`Context.Attained.keyed`).
-/

namespace LikelyInvariants

open Update

/-! ## Sorted positions -/

/-- Sorting by positions that are different puts them in strictly ascending order. -/
theorem pairwise_lt_mergeSort {α : Type} (key : α → Nat) {l : List α}
    (hne : l.Pairwise fun a b => key a ≠ key b) :
    (l.mergeSort fun a b => key a ≤ key b).Pairwise fun a b => key a < key b := by
  have hsorted : (l.mergeSort fun a b => key a ≤ key b).Pairwise fun a b =>
      decide (key a ≤ key b) = true :=
    List.pairwise_mergeSort (fun a b c => by simpa using Nat.le_trans)
      (fun a b => by simpa using Nat.le_total (key a) (key b)) l
  have hne' : (l.mergeSort fun a b => key a ≤ key b).Pairwise fun a b => key a ≠ key b :=
    (List.mergeSort_perm l _).symm.pairwise hne Ne.symm
  exact (hsorted.and hne').imp fun h => Nat.lt_of_le_of_ne (of_decide_eq_true h.1) h.2

/-! ## Keys of views -/

namespace Catalog

/-- Keys that begin differently are different. -/
theorem nodup_flatMap_cons {α : Type} {f : α → Nat} {g : α → List (List Nat)} :
    ∀ {l : List α}, (l.map f).Nodup → (∀ a ∈ l, (g a).Nodup) →
      (l.flatMap fun a => (g a).map (f a :: ·)).Nodup
  | [], _, _ => .nil
  | a :: l, hfirst, hrest => by
    rw [List.map_cons, List.nodup_cons] at hfirst
    rw [List.flatMap_cons]
    refine List.nodup_append.mpr ⟨?_, ?_, ?_⟩
    · exact (hrest a List.mem_cons_self).map fun k l h => (List.cons.inj h).2
    · exact nodup_flatMap_cons hfirst.2 fun b hb => hrest b (List.mem_cons_of_mem a hb)
    · intro k hk k' hk' heq
      obtain ⟨x, -, rfl⟩ := List.mem_map.mp hk
      obtain ⟨b, hb, hk'⟩ := List.mem_flatMap.mp hk'
      obtain ⟨y, -, rfl⟩ := List.mem_map.mp hk'
      have hsame : f b = f a := (List.cons.inj heq).1.symm
      exact hfirst.1 (hsame ▸ List.mem_map_of_mem hb)

theorem nodup_positions (first limit : Nat) : (positions first limit).Nodup := List.nodup_range'

variable {c : Catalog}

/-- The positions of the scalar variables of a range are different. -/
theorem nodup_scalarsIn (c : Catalog) (first limit : Nat) :
    ((c.scalarsIn first limit).map Prod.fst).Nodup := by
  have hpositions : ∀ l : List Nat, ((l.filterMap fun i =>
      ((c.var? i).filter (!·.type.isArray)).map (i, ·)).map Prod.fst).Sublist l := by
    intro l
    induction l with
    | nil => exact .slnil
    | cons i l ih =>
      cases hv : (c.var? i).filter (!·.type.isArray) with
      | none =>
        rw [List.filterMap_cons_none (by rw [hv]; rfl)]
        exact ih.cons i
      | some v =>
        rw [List.filterMap_cons_some (by rw [hv]; rfl), List.map_cons]
        exact ih.cons_cons i
  exact (nodup_positions first limit).sublist (hpositions _)

theorem nodup_singletons {l : List Nat} (h : l.Nodup) : (l.map fun i => [i]).Nodup :=
  h.map fun _ _ heq => (List.cons.inj heq).1

theorem nodup_pairKeys (min limit : Nat) : (pairKeys min limit).Nodup := by
  have hcons := nodup_flatMap_cons (f := id)
    (g := fun i => (positions (max (i + 1) min) limit).map fun j => [j])
    (by simpa using nodup_positions 0 limit) fun i _ => nodup_singletons (nodup_positions _ limit)
  simpa [pairKeys, Function.comp_def] using hcons

theorem nodup_tripleKeys (c : Catalog) (min limit : Nat) : (c.tripleKeys min limit).Nodup := by
  have hlast (u v : Variable) (j : Nat) : (((c.scalarsIn (max (j + 1) min) limit).filter fun x =>
      u.compatible v && u.compatible x.2).map fun x => [x.1]).Nodup := by
    have hkept := (c.nodup_scalarsIn (max (j + 1) min) limit).sublist ((List.filter_sublist
      (p := fun x : Nat × Variable => u.compatible v && u.compatible x.2)).map Prod.fst)
    simpa [Function.comp_def] using nodup_singletons hkept
  have hpairs (i : Nat) (u : Variable) := nodup_flatMap_cons (f := Prod.fst)
    (c.nodup_scalarsIn (i + 1) limit) fun x _ => hlast u x.2 x.1
  have hcons := nodup_flatMap_cons (f := Prod.fst) (c.nodup_scalarsIn 0 limit)
    fun x _ => hpairs x.1 x.2
  simpa [tripleKeys, List.map_flatMap, Function.comp_def] using hcons

/-- No key is opened twice: keys of different arities are different. -/
theorem nodup_viewKeys (c : Catalog) (min limit : Nat) (ternary : Bool) :
    (c.viewKeys min limit ternary).Nodup := by
  have hone : ∀ key ∈ (positions min limit).map fun i => [i], key.length = 1 := by simp
  have htwo : ∀ key ∈ pairKeys min limit, key.length = 2 := by
    intro key hkey
    obtain ⟨i, -, hkey⟩ := List.mem_flatMap.mp hkey
    obtain ⟨j, -, rfl⟩ := List.mem_map.mp hkey
    rfl
  have hthree : ∀ key ∈ (if ternary then c.tripleKeys min limit else []), key.length = 3 := by
    intro key hkey
    split at hkey
    · obtain ⟨u, -, hkey⟩ := List.mem_flatMap.mp hkey
      obtain ⟨v, -, hkey⟩ := List.mem_flatMap.mp hkey
      obtain ⟨w, -, rfl⟩ := List.mem_map.mp hkey
      rfl
    · cases hkey
  unfold viewKeys
  refine List.nodup_append.mpr ⟨List.nodup_append.mpr ⟨?_, nodup_pairKeys min limit, ?_⟩, ?_, ?_⟩
  · exact nodup_singletons (nodup_positions min limit)
  · rintro key hkey _ hkey' rfl
    have hlength := hone key hkey
    rw [htwo key hkey'] at hlength
    cases hlength
  · split
    · exact c.nodup_tripleKeys min limit
    · exact .nil
  · rintro key hkey _ hkey' rfl
    have hlength := hthree key hkey'
    rcases List.mem_append.mp hkey with hkey | hkey
    · rw [hone key hkey] at hlength
      cases hlength
    · rw [htwo key hkey] at hlength
      cases hlength

end Catalog

/-! ## Slices of a point -/

section Slices

theorem perm_insertSlice (s : Slice) (ts : List Slice) : (insertSlice s ts).Perm (s :: ts) := by
  induction ts with
  | nil => exact .refl _
  | cons t ts ih =>
    unfold insertSlice
    split
    · exact .refl _
    · exact (ih.cons t).trans (.swap s t ts)

/-- A slice with one more entry, if it is the one over a key. -/
def Slice.fill (key : List Nat) (e : SliceEntry) (s : Slice) : Slice :=
  if s.key = key then { s with entries := s.entries ++ [e] } else s

@[simp] theorem Slice.key_fill (key : List Nat) (e : SliceEntry) (s : Slice) :
    (s.fill key e).key = s.key := by
  unfold fill
  split <;> rfl

/-- Where no two slices have the same key, only one of them gets the entry. -/
theorem perm_ids_fill (key : List Nat) (e : SliceEntry) :
    ∀ {slices : List Slice}, (slices.map Slice.key).Nodup →
      ((slices.map (Slice.fill key e)).flatMap Slice.ids).Perm (slices.flatMap Slice.ids) ∨
        ((slices.map (Slice.fill key e)).flatMap Slice.ids).Perm (e.id :: slices.flatMap Slice.ids)
  | [], _ => .inl (.refl _)
  | s :: slices, h => by
    rw [List.map_cons, List.nodup_cons] at h
    rw [List.map_cons, List.flatMap_cons, List.flatMap_cons]
    by_cases hkey : s.key = key
    · have hothers : slices.map (Slice.fill key e) = slices := by
        refine (List.map_congr_left fun t ht => ?_).trans (List.map_id slices)
        refine if_neg fun hsame => h.1 ?_
        rw [hkey, ← hsame]
        exact List.mem_map_of_mem ht
      have hids : (s.fill key e).ids = s.ids ++ [e.id] := by
        simp [Slice.fill, hkey, Slice.ids]
      rw [hothers, hids, List.append_assoc]
      exact .inr List.perm_middle
    · have hsame : s.fill key e = s := if_neg hkey
      rw [hsame]
      rcases perm_ids_fill key e h.2 with hperm | hperm
      · exact .inl (hperm.append_left _)
      · exact .inr ((hperm.append_left _).trans List.perm_middle)

end Slices

namespace Point

/-- A slice over each key once at most, of variables of the point, and every invariant with a number
of its own. -/
structure Keyed (p : Point) : Prop where
  nodup : (p.slices.map Slice.key).Nodup
  lt : ∀ s ∈ p.slices, ∀ i ∈ s.key, i < p.catalog.size
  numbered : p.Numbered

namespace Keyed

variable {p q : Point}

theorem of_nil (h : p.slices = []) : p.Keyed where
  nodup := by simp [h]
  lt := by simp [h]
  numbered := by constructor <;> simp [ids, h]

/-- Slices may go, numbers may be used up, and there may be more variables. -/
theorem of_sublist (h : p.Keyed) (hslices : q.slices.Sublist p.slices)
    (hnext : p.nextId ≤ q.nextId) (hsize : p.catalog.size ≤ q.catalog.size) : q.Keyed where
  nodup := h.nodup.sublist (hslices.map _)
  lt s hs i hi := Nat.lt_of_lt_of_le (h.lt s (hslices.subset hs) i hi) hsize
  numbered := h.numbered.of_sublist (hslices.flatMap Slice.ids) hnext

theorem openView (h : p.Keyed) {key : List Nat} (hkey : p.IsUnused key) (invs : List Invariant) :
    (p.openView key invs).Keyed where
  nodup := by
    refine ((perm_insertSlice _ _).map Slice.key).nodup_iff.mpr ?_
    rw [List.map_cons, List.nodup_cons]
    refine ⟨fun hmem => ?_, h.nodup⟩
    obtain ⟨s, hs, hsame⟩ := List.mem_map.mp hmem
    exact hkey.unused s hs hsame
  lt s hs := by
    rcases mem_insertSlice.mp hs with rfl | hs
    · exact hkey.lt
    · exact h.lt s hs
  numbered := h.numbered.openView key invs

theorem openAll {pending : List (List Nat × List Invariant)} (h : p.Keyed)
    (hnodup : (pending.map Prod.fst).Nodup) (hunused : ∀ x ∈ pending, p.IsUnused x.1) :
    (p.openAll pending).Keyed := by
  induction pending generalizing p with
  | nil => exact h
  | cons x pending ih =>
    rw [List.map_cons, List.nodup_cons] at hnodup
    refine ih (h.openView (hunused x List.mem_cons_self) x.2) hnodup.2 fun y hy => ?_
    have hold := hunused y (List.mem_cons_of_mem x hy)
    refine ⟨hold.lt, fun s hs => ?_⟩
    rcases mem_insertSlice.mp hs with rfl | hs
    · intro hsame
      refine hnodup.1 ?_
      rw [show x.1 = y.1 from hsame]
      exact List.mem_map_of_mem hy
    · exact hold.unused s hs

theorem fill (h : p.Keyed) (key : List Nat) (inv : Invariant) :
    ({ p with
      slices := p.slices.map (Slice.fill key { id := p.nextId, inv })
      nextId := p.nextId + 1 } : Point).Keyed where
  nodup := by simpa [Function.comp_def] using h.nodup
  lt s hs := by
    obtain ⟨t, ht, rfl⟩ := List.mem_map.mp hs
    rw [Slice.key_fill]
    exact h.lt t ht
  numbered := by
    have hold := h.numbered.nodup
    have hnew : p.nextId ∉ p.ids := fun hmem => Nat.lt_irrefl _ (h.numbered.lt _ hmem)
    rcases perm_ids_fill key { id := p.nextId, inv } h.nodup with hperm | hperm
    · refine ⟨hperm.nodup_iff.mpr hold, fun id hid => ?_⟩
      exact Nat.lt_succ_of_lt (h.numbered.lt id (hperm.mem_iff.mp hid))
    · refine ⟨hperm.nodup_iff.mpr (List.nodup_cons.mpr ⟨hnew, hold⟩), fun id hid => ?_⟩
      rcases List.mem_cons.mp (hperm.mem_iff.mp hid) with rfl | hid
      · exact Nat.lt_succ_self _
      · exact Nat.lt_succ_of_lt (h.numbered.lt id hid)

theorem feed (h : p.Keyed) (s : Sample) (count : Nat) : (p.feed s count).Keyed := by
  have hkeys : ((p.feed s count).slices.map Slice.key).Sublist (p.slices.map Slice.key) := by
    have hsame : (p.slices.map fun t => if t.isEmpty then t else t.add p.catalog s count).map
        Slice.key = p.slices.map Slice.key := by
      rw [List.map_map]
      refine List.map_congr_left fun t _ => ?_
      by_cases hempty : t.isEmpty <;> simp [hempty]
    rw [← hsame]
    exact List.filter_sublist.map Slice.key
  refine ⟨h.nodup.sublist hkeys, fun t ht => ?_, h.numbered.feed s count⟩
  obtain ⟨t', ht', hkey⟩ := List.mem_map.mp (hkeys.subset (List.mem_map_of_mem ht))
  rw [← hkey]
  exact h.lt t' ht'

end Keyed

/-! ## Requests to a point -/

/-- A change that keeps the slices of a point in order. -/
def Orderly (p q : Point) : Prop := p.Keyed → q.Keyed

theorem orderly_refl (p : Point) : Orderly p p := id

theorem orderly_trans (p q r : Point) (h : Orderly p q) (k : Orderly q r) : Orderly p r :=
  fun hkeyed => k (h hkeyed)

theorem Grown.orderly {p q : Point} (h : Grown p q) : Orderly p q := fun hkeyed =>
  hkeyed.of_sublist (h.still.slices ▸ .refl _) h.still.nextId h.akin.size_le

theorem Annotated.orderly {p q : Point} (h : Annotated p q) : Orderly p q := fun hkeyed =>
  hkeyed.of_sublist (h.still.slices ▸ .refl _) h.still.nextId h.steady.akin.size_le

/-- What is to be opened is over no slice that is open, and over no key twice. -/
theorem pendingViews_ok {p : Point} {fs : Factories} {controlled : Controlled}
    {keys : List (List Nat)} {pending : List (List Nat × List Invariant)}
    (h : p.pendingViews fs controlled keys = .ok pending) :
    (pending.map Prod.fst).Sublist keys ∧ ∀ x ∈ pending, ∀ s ∈ p.slices, s.key ≠ x.1 := by
  unfold pendingViews at h
  dsimp only at h
  split at h
  · cases h
  · next hnone =>
    cases h
    refine ⟨?_, fun x hx s hs hkey => ?_⟩
    · clear hnone
      induction keys with
      | nil => exact .slnil
      | cons key keys ih =>
        rw [List.filterMap_cons]
        split
        · exact ih.cons key
        · next y hy =>
          split at hy
          · cases hy
          · cases hy
            exact ih.cons_cons key
    · have hfree := List.find?_eq_none.mp hnone x hx
      simp only [slice?, List.find?_isSome, decide_eq_true_eq] at hfree
      exact hfree ⟨s, hs, hkey⟩

theorem orderly_openViews (scope : Scope) (min limit : Nat) :
    Keeps Orderly (scope.openViews min limit) := by
  intro p hkeyed
  rcases h : (scope.openViews min limit).exec p with ⟨e | n, q⟩
  · rw [openViews_error h]
    exact hkeyed
  · obtain ⟨rfl, -, pending, hpending, rfl⟩ := openViews_ok h
    obtain ⟨hsub, hfree⟩ := pendingViews_ok hpending
    have hnodup := (p.catalog.nodup_viewKeys min p.catalog.size scope.ternary).sublist hsub
    have hopened := hkeyed.openAll hnodup fun x hx =>
      ⟨Catalog.lt_of_mem_viewKeys (hsub.subset (List.mem_map_of_mem hx)), hfree x hx⟩
    exact hopened.of_sublist (.refl _) (Nat.le_refl _) (Nat.le_refl _)

theorem orderly_openSlice (vars : List Nat) : Keeps Orderly (openSlice vars) := by
  intro p hkeyed
  rcases h : (openSlice vars).exec p with ⟨e | s, q⟩
  · rw [openSlice_error h]
    exact hkeyed
  · rcases openSlice_new h with rfl | ⟨key, hunused, rfl⟩
    · exact hkeyed
    · exact hkeyed.openView hunused []

theorem orderly_addInvariant (vars : List Nat) (inv : Invariant) :
    Keeps Orderly (addInvariant vars inv) := by
  intro p hkeyed
  rcases h : (addInvariant vars inv).exec p with ⟨e | n, q⟩
  · rw [addInvariant_error h]
    exact hkeyed.of_sublist (.refl _) (Nat.le_succ _) (Nat.le_refl _)
  · obtain ⟨slices, rfl | ⟨hunused, rfl⟩, rfl⟩ := addInvariant_new h
    · exact hkeyed.fill vars.mergeSort inv
    · exact (hkeyed.openView hunused []).fill vars.mergeSort inv

theorem orderly_removeSlice (vars : List Nat) : Keeps Orderly (removeSlice vars) := by
  intro p hkeyed
  rcases h : (removeSlice vars).exec p with ⟨e | s, q⟩
  · rw [removeSlice_error h]
    exact hkeyed
  · obtain ⟨key, rfl⟩ := removeSlice_ok h
    exact hkeyed.of_sublist List.filter_sublist (Nat.le_refl _) (Nat.le_refl _)

theorem orderly_take (scope : Scope) (s : Sample) (count : Nat) :
    Keeps Orderly (take scope s count) := by
  refine keeps_bind orderly_trans (keeps_bind orderly_trans orderly_refl fun p => ?_) fun _ p => ?_
  · split
    · refine keeps_bind orderly_trans (orderly_openViews scope _ _) fun _ => ?_
      exact keeps_pure orderly_refl _
    · exact keeps_pure orderly_refl _
  · exact fun hkeyed => hkeyed.feed s count

theorem orderly_perform (a : PointAction) : Keeps Orderly (perform a) := by
  have hdiscard {α : Type} {m : Update Point α} (h : Keeps Orderly m) :
      Keeps Orderly (do let _ ← m) :=
    keeps_bind orderly_trans h fun _ => keeps_pure orderly_refl _
  cases a with
  | addVariables vars => exact hdiscard fun p => (grown_addVariables vars p).orderly
  | createDerived rules settings =>
    exact hdiscard fun p => (grown_createDerived rules settings p).orderly
  | openViews scope min limit => exact hdiscard (orderly_openViews scope min limit)
  | openSlice vars => exact hdiscard (orderly_openSlice vars)
  | addInvariant vars inv => exact hdiscard (orderly_addInvariant vars inv)
  | removeSlice vars => exact hdiscard (orderly_removeSlice vars)

end Point

/-! ## Sessions -/

namespace Context

open Point (Orderly Keyed)

variable {ctx ctx' : Context} {id : Nat} {p q : Point}

/-- Every point has its slices in order. -/
structure AllKeyed (ctx : Context) : Prop where
  keyed : ∀ {i : Nat} {p : Point}, ctx.points[i]? = some p → p.Keyed

namespace AllKeyed

/-- Where nothing happens to slices it is enough that no point loses variables. -/
theorem settles (h : ctx.AllKeyed) (k : ctx.Settles ctx')
    (hsize : ∀ {i : Nat} {p q : Point}, ctx.points[i]? = some p → ctx'.points[i]? = some q →
      p.catalog.size ≤ q.catalog.size) : ctx'.AllKeyed := by
  constructor
  intro i q hq
  have hlives := k.lives i
  rw [hq] at hlives
  cases hp : ctx.points[i]? with
  | none =>
    rw [hp] at hlives
    obtain ⟨p, hfresh, hsteps⟩ := hlives
    exact .of_nil ((hsteps.still_of_nil rfl).slices.trans hfresh.slices)
  | some p =>
    rw [hp] at hlives
    have hstill : p.Still q := hlives.still_of_nil rfl
    exact (h.keyed hp).of_sublist (hstill.slices ▸ .refl _) hstill.nextId (hsize hp hq)

theorem moves (h : ctx.AllKeyed) (k : Moves Orderly ctx ctx') : ctx'.AllKeyed := by
  constructor
  intro i q hq
  obtain ⟨p, hp, horderly⟩ := k.source hq
  exact horderly (h.keyed hp)

end AllKeyed

/-- Where the variables of a point are given to its descendants, none of them loses variables. -/
theorem GrowsAt.size_le (hrouted : ctx.Routed) (hforest : ctx.IsForest) {α : Type}
    {r : Except Error α} (k : ctx.GrowsAt id (r, ctx')) {i : Nat} (hp : ctx.points[i]? = some p)
    (hq : ctx'.points[i]? = some q) : p.catalog.size ≤ q.catalog.size := by
  have hset {p₀ q₀ : Point} (hp₀ : ctx.points[id]? = some p₀) (hgrown : p₀.Grown q₀) {p' : Point}
      (hp' : (ctx.points.set id q₀)[i]? = some p') : p.catalog.size ≤ p'.catalog.size := by
    by_cases hid : id = i
    · subst hid
      rw [List.getElem?_set_self (lt_of_point hp)] at hp'
      cases hp'
      rw [hp] at hp₀
      cases hp₀
      exact hgrown.akin.size_le
    · rw [List.getElem?_set_ne hid, hp] at hp'
      cases hp'
      exact Nat.le_refl _
  cases k with
  | failed e =>
    rw [hp] at hq
    cases hq
    exact Nat.le_refl _
  | still a hp₀ hgrown hsteady => exact hset hp₀ hgrown hq
  | @shared p₀ q₀ a hp₀ hgrown hfollow =>
    rw [spread, getElem?_handDown] at hq
    split at hq
    · next hdescendant =>
      obtain ⟨p', -, rfl⟩ := Option.map_eq_some_iff.mp hq
      have hbelow := hforest.mem_descendants.mp hdescendant
      exact Nat.le_trans (hrouted.smaller_of_descends hforest hbelow hp₀ hp) hgrown.akin.size_le
    · exact hset hp₀ hgrown hq

/-- Every point that was there before still has its variables. -/
def KeepsCatalogs (ctx ctx' : Context) : Prop :=
  ∀ (i : Nat) (p : Point), ctx.points[i]? = some p →
    ∃ q, ctx'.points[i]? = some q ∧ q.catalog = p.catalog

theorem keepsCatalogs_refl (ctx : Context) : ctx.KeepsCatalogs ctx := fun _ p hp => ⟨p, hp, rfl⟩

theorem keepsCatalogs_trans (ctx ctx' ctx'' : Context) (h : ctx.KeepsCatalogs ctx')
    (k : ctx'.KeepsCatalogs ctx'') : ctx.KeepsCatalogs ctx'' := by
  intro i p hp
  obtain ⟨q, hq, hcatalog⟩ := h i p hp
  obtain ⟨r, hr, hcatalog'⟩ := k i q hq
  exact ⟨r, hr, hcatalog'.trans hcatalog⟩

theorem keepsCatalogs_split (id : Nat) (splitters : List Splitter) :
    Keeps KeepsCatalogs (split id splitters) := by
  refine keeps_split keepsCatalogs_refl keepsCatalogs_trans (fun s polarity ctx => ?_) splitters
  rcases addChild_cases id s polarity ctx with ⟨e, hfail⟩ | ⟨parent, ctx', -, -, hadd, hadds⟩
  · rw [hfail]
    exact keepsCatalogs_refl ctx
  · rw [hadd]
    intro i p hp
    obtain ⟨q, hq, hgains⟩ := hadds.kept hp
    exact ⟨q, hq, hgains.catalog⟩

theorem AllKeyed.split (h : ctx.AllKeyed) (id : Nat) (splitters : List Splitter) :
    ((split id splitters).exec ctx).2.AllKeyed := by
  refine h.settles (silent_split id splitters ctx) fun hp hq => ?_
  obtain ⟨q', hq', hcatalog⟩ := keepsCatalogs_split id splitters ctx _ _ hp
  rw [hq] at hq'
  cases hq'
  exact Nat.le_of_eq (congrArg Catalog.size hcatalog.symm)

theorem AllKeyed.changes {a : Action} (h : ctx.AllKeyed) (hformed : ctx.WellFormed)
    (hrouted : ctx.Routed) (k : Changes Orderly ctx a ctx') : ctx'.AllKeyed := by
  have hannotated {i : Nat} {p q : Point} (hp : ctx.points[i]? = some p) (k : p.Annotated q) :
      ({ ctx with points := ctx.points.set i q } : Context).AllKeyed :=
    h.moves (moves_set Point.orderly_refl hp k.orderly)
  cases k with
  | moved k => exact h.moves k
  | grown k => exact h.settles k.settles (k.size_le hrouted hformed.isForest)
  | added vars hfree =>
    constructor
    intro i q hq
    rcases (adds_alone ctx _).source hq with ⟨-, rfl⟩ | ⟨p, hp, -⟩
    · exact .of_nil rfl
    · rw [List.getElem?_append_left (lt_of_point hp), hp] at hq
      cases hq
      exact h.keyed hp
  | split id splitters => exact h.split id splitters
  | @contrasted id p _ hp => exact hannotated hp (annotated_contrasted ctx p)
  | @marked id p included _ hp =>
    have hset := hannotated hp (tagged_mark p (ctx.redundancyPass id p included).2.1).annotated
    exact ⟨hset.keyed⟩

theorem orderly_perform_context (ctx : Context) (a : Action) :
    Changes Orderly ctx a ((perform a).exec ctx).2 :=
  changes_perform_by Point.orderly_refl Point.orderly_trans Point.orderly_take
    (fun scope min limit => Point.orderly_perform (.openViews scope min limit)) (fun _ _ h => h)
    ctx a (fun _ _ h => h.tagged.annotated.orderly) fun _ action _ => Point.orderly_perform action

theorem allKeyed_after (hempty : ctx.points = []) (acts : List Action) :
    (ctx.after acts).AllKeyed := by
  refine (after_induction (P := fun ctx => ctx.WellFormed ∧ ctx.Routed ∧ ctx.AllKeyed)
    (fun ctx a h => ⟨h.1.changes (changes_perform ctx a),
      h.2.1.changes h.1.isForest (links_perform_context ctx a),
      h.2.2.changes h.1 h.2.1 (orderly_perform_context ctx a)⟩)
    ⟨.of_empty hempty, .of_empty hempty, ⟨fun hp => by simp [hempty] at hp⟩⟩ acts).2.2

/-- In every reachable context every point has its slices in order. -/
theorem Attained.keyed (h : ctx.Attained) (hp : ctx.points[id]? = some p) : p.Keyed := by
  obtain ⟨start, acts, hempty, rfl⟩ := h
  exact (allKeyed_after hempty acts).keyed hp

end Context

end LikelyInvariants
