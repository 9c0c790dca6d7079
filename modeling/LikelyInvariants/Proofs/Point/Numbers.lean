import LikelyInvariants.Proofs.Point.Steps

/-!
# Numbers of invariants

The invariants of a point are numbered as they come, and a number is never given twice. So a number
finds its invariant again, with its slice, for as long as it is there (`Point.invariant?_of_mem`).
This is what terms rely on, which keep the number only.
-/

namespace LikelyInvariants

/-! ## Numbers of slices -/

section Slices

/-- The numbers of the invariants of a slice. -/
def Slice.ids (s : Slice) : List Nat := s.entries.map SliceEntry.id

theorem perm_ids_insertSlice (s : Slice) (ts : List Slice) :
    ((insertSlice s ts).flatMap Slice.ids).Perm (s.ids ++ ts.flatMap Slice.ids) := by
  induction ts with
  | nil => simp [insertSlice]
  | cons t ts ih =>
    unfold insertSlice
    split
    · exact .refl _
    · simp only [List.flatMap_cons]
      refine (ih.append_left t.ids).trans ?_
      rw [← List.append_assoc, ← List.append_assoc]
      exact List.perm_append_comm.append_right _

theorem SliceEntry.id_add? {t : Tuple} {n : Nat} {e e' : SliceEntry} (h : e.add? t n = some e') :
    e'.id = e.id := by
  obtain ⟨inv, -, rfl⟩ := Option.map_eq_some_iff.mp h
  rfl

/-- Samples take invariants away and bring none. -/
theorem Slice.sublist_ids_add (s : Slice) (c : Catalog) (x : Sample) (n : Nat) :
    (s.add c x n).ids.Sublist s.ids := by
  unfold add ids
  split
  · next t ht =>
    simp only
    induction s.entries with
    | nil => exact .slnil
    | cons e entries ih =>
      rw [List.filterMap_cons]
      split
      · exact ih.cons _
      · next e' he' =>
        rw [List.map_cons, List.map_cons, SliceEntry.id_add? he']
        exact ih.cons_cons _
  · exact .refl _

theorem sublist_ids_map {f : Slice → Slice} (hf : ∀ s : Slice, (f s).ids.Sublist s.ids)
    (slices : List Slice) :
    ((slices.map f).flatMap Slice.ids).Sublist (slices.flatMap Slice.ids) := by
  induction slices with
  | nil => exact .slnil
  | cons s slices ih =>
    rw [List.map_cons, List.flatMap_cons, List.flatMap_cons]
    exact (hf s).append ih

theorem sublist_ids_filter (keep : Slice → Bool) (slices : List Slice) :
    ((slices.filter keep).flatMap Slice.ids).Sublist (slices.flatMap Slice.ids) := by
  induction slices with
  | nil => exact .slnil
  | cons s slices ih =>
    rw [List.filter_cons, List.flatMap_cons]
    split
    · rw [List.flatMap_cons]
      exact ih.append_left s.ids
    · exact ih.trans (List.sublist_append_right _ _)

/-- Among different numbers a number finds its invariant. -/
theorem find?_of_mem_entries {entries : List SliceEntry} {e : SliceEntry} (he : e ∈ entries)
    (hnodup : (entries.map SliceEntry.id).Nodup) : entries.find? (·.id = e.id) = some e := by
  induction entries with
  | nil => simp at he
  | cons f entries ih =>
    rw [List.map_cons, List.nodup_cons] at hnodup
    rcases List.mem_cons.mp he with rfl | he
    · simp
    · have hne : f.id ≠ e.id := by
        rintro heq
        exact hnodup.1 (heq ▸ List.mem_map_of_mem he)
      rw [List.find?_cons_of_neg (by simpa using hne)]
      exact ih he hnodup.2

end Slices

/-! ## Numbers of points -/

namespace Point

open Update

/-- The numbers of the invariants of a point. -/
def ids (p : Point) : List Nat := p.slices.flatMap Slice.ids

/-- No number was given twice, and the next one is new. -/
structure Numbered (p : Point) : Prop where
  nodup : p.ids.Nodup
  lt : ∀ id ∈ p.ids, id < p.nextId

namespace Numbered

/-- Invariants may go. -/
theorem of_sublist {p q : Point} (h : p.Numbered) (hids : q.ids.Sublist p.ids)
    (hnext : p.nextId ≤ q.nextId) : q.Numbered where
  nodup := hids.nodup h.nodup
  lt id hid := Nat.lt_of_lt_of_le (h.lt id (hids.subset hid)) hnext

/-- The invariants of a new slice get numbers from the next one on. -/
theorem openView {p : Point} (h : p.Numbered) (key : List Nat) (invs : List Invariant) :
    (p.openView key invs).Numbered := by
  have hnew : ∀ id ∈ (invs.mapIdx fun i inv => { id := p.nextId + i, inv : SliceEntry }).map
      SliceEntry.id, p.nextId ≤ id ∧ id < p.nextId + invs.length := by
    intro id hid
    obtain ⟨e, he, rfl⟩ := List.mem_map.mp hid
    obtain ⟨i, hi, rfl⟩ := List.mem_mapIdx.mp he
    exact ⟨Nat.le_add_right _ i, Nat.add_lt_add_left hi _⟩
  have hperm := perm_ids_insertSlice
    { key, entries := invs.mapIdx fun i inv => { id := p.nextId + i, inv } } p.slices
  refine ⟨hperm.nodup_iff.mpr (List.nodup_append.mpr ⟨?_, h.nodup, ?_⟩), fun id hid => ?_⟩
  · have hids : (invs.mapIdx fun i inv => { id := p.nextId + i, inv : SliceEntry }).map
        SliceEntry.id = List.range' p.nextId invs.length := by
      refine List.ext_getElem (by simp) fun i hi hi' => ?_
      simp
    show ((invs.mapIdx fun i inv => { id := p.nextId + i, inv : SliceEntry }).map
      SliceEntry.id).Nodup
    rw [hids]
    exact List.nodup_range'
  · rintro id hid _ hold rfl
    exact absurd (h.lt id hold) (Nat.not_lt.mpr (hnew id hid).1)
  · rcases List.mem_append.mp (hperm.mem_iff.mp hid) with hid | hid
    · exact (hnew id hid).2
    · exact Nat.lt_of_lt_of_le (h.lt id hid) (Nat.le_add_right _ _)

theorem openAll {p : Point} (h : p.Numbered) (pending : List (List Nat × List Invariant)) :
    (p.openAll pending).Numbered := by
  induction pending generalizing p with
  | nil => exact h
  | cons x pending ih => exact ih (h.openView x.1 x.2)

theorem feed {p : Point} (h : p.Numbered) (s : Sample) (n : Nat) : (p.feed s n).Numbered := by
  refine h.of_sublist ((sublist_ids_filter _ _).trans (sublist_ids_map (fun t => ?_) _))
    (Nat.le_refl _)
  split
  · exact .refl _
  · exact t.sublist_ids_add p.catalog s n

end Numbered

/-- As long as nothing is put into its slices by hand, the invariants of a point are numbered. -/
theorem Steps.numbered {p q : Point} {hs : List Happening} (hfresh : p.IsFresh) (h : p.Steps hs q)
    (hnone : ∀ vars inv, .filled vars inv ∉ hs) : q.Numbered := by
  induction h with
  | start => constructor <;> simp [ids, hfresh.slices]
  | still _ k ih =>
    refine (ih hnone).of_sublist ?_ k.nextId
    rw [ids, k.slices]
    exact .refl _
  | step _ k ih =>
    have ih := ih fun vars inv hmem => hnone vars inv (List.mem_append_left _ hmem)
    cases k with
    | opened h =>
      obtain ⟨-, -, pending, -, rfl⟩ := openViews_ok h
      exact (ih.openAll pending).of_sublist (.refl _) (Nat.le_refl _)
    | took => exact ih.feed _ _
    | filled => exact absurd (List.mem_append_right _ List.mem_cons_self) (hnone _ _)
    | sliceOpened h =>
      obtain rfl | ⟨key, rfl⟩ := openSlice_ok h
      · exact ih
      · have hperm := perm_ids_insertSlice { key } ‹Point›.slices
        exact ⟨hperm.nodup_iff.mpr ih.nodup, fun id hid => ih.lt id (hperm.mem_iff.mp hid)⟩
    | sliceRemoved h =>
      obtain ⟨key, rfl⟩ := removeSlice_ok h
      exact ih.of_sublist (sublist_ids_filter _ _) (Nat.le_refl _)

/-- The number of an invariant finds it and its slice. -/
theorem invariant?_of_mem {p : Point} (h : p.Numbered) {s : Slice} (hs : s ∈ p.slices)
    {e : SliceEntry} (he : e ∈ s.entries) : p.invariant? e.id = some (s.key, e.inv) := by
  have hnodup : (p.slices.flatMap Slice.ids).Nodup := h.nodup
  unfold invariant?
  generalize p.slices = slices at hs hnodup
  induction slices with
  | nil => simp at hs
  | cons t ts ih =>
    rw [List.flatMap_cons, List.nodup_append] at hnodup
    rw [List.findSome?_cons]
    rcases List.mem_cons.mp hs with rfl | hs
    · rw [find?_of_mem_entries he hnodup.1]
      rfl
    · have hother : t.entries.find? (·.id = e.id) = none := by
        refine List.find?_eq_none.mpr fun f hf heq => ?_
        refine hnodup.2.2 f.id (List.mem_map_of_mem hf) e.id ?_ (by simpa using heq)
        exact List.mem_flatMap.mpr ⟨s, hs, List.mem_map_of_mem he⟩
      rw [hother]
      exact ih hs hnodup.2.1

end Point

end LikelyInvariants
