import LikelyInvariants.Derivation
import LikelyInvariants.Proofs.Value.Order
import Mathlib.Data.List.Sort

/-!
# Sequences as sets

Two rules take sequences for sets: one derives what two sequences have in common, the other what
they have together. Both sort first and then drop each element that repeats the one before. After
sorting, equal elements stand next to each other, so what is left ascends strictly
(`ascending_sortedSet`) and has the same elements (`mem_sortedSet`). There is only one such list
(`eq_of_ascending`), so the results depend on which elements the sequences have and on nothing else
(`BinaryRule.setOps_exact`).
-/

namespace LikelyInvariants

/-! ## Sorting and dropping repeats -/

section Ascending

variable {α : Type} {le : α → α → Bool} {as bs : List α} {a : α}

/-- A test for a total order. -/
structure IsTotalOrder (le : α → α → Bool) : Prop where
  trans : ∀ a b c, le a b → le b c → le a c
  total : ∀ a b, le a b || le b a
  antisymm : ∀ a b, le a b → le b a → a = b

/-- Each element comes before the later ones and is none of them. -/
def Ascending (le : α → α → Bool) (as : List α) : Prop := as.Pairwise fun a b => le a b ∧ a ≠ b

theorem Ascending.nodup (h : Ascending le as) : as.Nodup := h.imp And.right

theorem Ascending.sorted (h : Ascending le as) : as.Pairwise fun a b => le a b := h.imp And.left

/-- If one of two ascending lists has all elements of the other, it has them in the same order. -/
theorem Ascending.sublist_of_subset (hle : IsTotalOrder le) (has : Ascending le as)
    (hbs : Ascending le bs) (hsub : as ⊆ bs) : as.Sublist bs := by
  have : Std.Antisymm fun a b => le a b = true := ⟨hle.antisymm⟩
  exact List.sublist_of_subperm_of_pairwise (List.subperm_of_subset has.nodup hsub) has.sorted
    hbs.sorted

theorem eq_of_ascending (hle : IsTotalOrder le) (has : Ascending le as) (hbs : Ascending le bs)
    (hmem : ∀ a, a ∈ as ↔ a ∈ bs) : as = bs :=
  (has.sublist_of_subset hle hbs fun a => (hmem a).mp).antisymm
    (hbs.sublist_of_subset hle has fun a => (hmem a).mpr)

variable [DecidableEq α]

theorem mem_dropRepeats : a ∈ dropRepeats as ↔ a ∈ as := by
  fun_induction dropRepeats as with
  | case1 => rfl
  | case2 => rfl
  | case3 b rest ih =>
    rw [ih, List.mem_cons (b := b) (l := b :: rest)]
    exact ⟨.inr, fun h => h.elim (fun heq => heq ▸ List.mem_cons_self) id⟩
  | case4 b c rest _ ih => rw [List.mem_cons, ih, List.mem_cons (b := b)]

/-- In a sorted list an element that differs from the next one differs from all later ones. -/
theorem ascending_dropRepeats (hle : IsTotalOrder le) (h : as.Pairwise fun a b => le a b) :
    Ascending le (dropRepeats as) := by
  fun_induction dropRepeats as with
  | case1 => exact .nil
  | case2 a => exact List.pairwise_singleton _ a
  | case3 b rest ih => exact ih (List.pairwise_cons.mp h).2
  | case4 b c rest hne ih =>
    obtain ⟨hfirst, hrest⟩ := List.pairwise_cons.mp h
    refine List.pairwise_cons.mpr ⟨fun d hd => ?_, ih hrest⟩
    rw [mem_dropRepeats] at hd
    refine ⟨hfirst d hd, ?_⟩
    rintro rfl
    rcases List.mem_cons.mp hd with heq | hd
    · exact hne heq
    · exact hne (hle.antisymm b c (hfirst c List.mem_cons_self) ((List.pairwise_cons.mp hrest).1 b hd))

theorem mem_sortedSet : a ∈ sortedSet le as ↔ a ∈ as := by
  rw [sortedSet, mem_dropRepeats, List.mem_mergeSort]

theorem ascending_sortedSet (hle : IsTotalOrder le) (as : List α) :
    Ascending le (sortedSet le as) :=
  ascending_dropRepeats hle (List.pairwise_mergeSort hle.trans hle.total as)

/-- An ascending list with the same elements is the result. -/
theorem sortedSet_eq_of_ascending (hle : IsTotalOrder le) (hbs : Ascending le bs)
    (hmem : ∀ a, a ∈ as ↔ a ∈ bs) : sortedSet le as = bs :=
  eq_of_ascending hle (ascending_sortedSet hle as) hbs fun a => by rw [mem_sortedSet, hmem]

end Ascending

/-! ## The two orders -/

section Orders

theorem isTotalOrder_intLe : IsTotalOrder intLe where
  trans a b c hab hbc := by
    simp only [intLe, decide_eq_true_eq] at *
    exact Int.le_trans hab hbc
  total a b := by simpa [intLe] using Int.le_total a.toInt b.toInt
  antisymm a b hab hba := by
    simp only [intLe, decide_eq_true_eq] at *
    exact Int64.toInt_inj.mp (Int.le_antisymm hab hba)

theorem isTotalOrder_strLe : IsTotalOrder strLe where
  trans a b c hab hbc := by
    simp only [strLe, decide_eq_true_eq] at *
    exact String.le_trans hab hbc
  total a b := by simpa [strLe] using String.le_total a b
  antisymm a b hab hba := by
    simp only [strLe, decide_eq_true_eq] at *
    exact String.le_antisymm hab hba

/-- The orders are those of values. -/
theorem precedes_int {a b : Int64} (hle : intLe a b) (hne : a ≠ b) :
    (Value.int a).precedes (.int b) := by
  have hlt : a.toInt < b.toInt :=
    Std.lt_of_le_of_ne (by simpa [intLe] using hle) fun h => hne (Int64.toInt_inj.mp h)
  rw [Value.precedes_iff, Value.compare?, Option.some_inj]
  exact Std.compare_eq_lt.mpr hlt

theorem precedes_str {a b : String} (hle : strLe a b) (hne : a ≠ b) :
    (Value.str a).precedes (.str b) := by
  have hlt : a < b := Std.lt_of_le_of_ne (by simpa [strLe] using hle) hne
  rw [Value.precedes_iff, Value.compare?, Option.some_inj]
  exact compareOfLessAndEq_eq_lt.mpr hlt

end Orders

/-! ## Values that are taken for sets -/

section Sets

/-- An element of a sequence. -/
def Value.Has (v x : Value) : Prop := ∃ vs, v.elements? = some vs ∧ x ∈ vs

/-- Two sequences have the same elements, in whatever order and however often. -/
def Value.HasSame (v w : Value) : Prop := ∀ x, v.Has x ↔ w.Has x

/-- A sequence of the values with a property, each once and in ascending order. -/
def Value.IsSetOf (v : Value) (member : Value → Prop) : Prop :=
  ∃ vs, v.elements? = some vs ∧ (vs.Pairwise fun x y => x.precedes y) ∧ ∀ x, x ∈ vs ↔ member x

/-- The values of a type are lists of things, and the recipes for sets put these in order and drop
repeats. -/
structure TakesSets {α : Type} [DecidableEq α] (t : VarType) (le : α → α → Bool) (item : α → Value)
    (wrap : List α → Value) : Prop where
  order : IsTotalOrder le
  precedes : ∀ {a b}, le a b → a ≠ b → (item a).precedes (item b)
  item_inj : ∀ {a b}, item a = item b → a = b
  accepts : ∀ {v}, t.accepts v ↔ ∃ as, wrap as = v
  elements : ∀ as, (wrap as).elements? = some (as.map item)
  intersect : ∀ as bs, Recipe.compute? .intersect [wrap as, wrap bs] =
    some (wrap (sortedSet le (as.filter bs.contains)))
  union : ∀ as bs, Recipe.compute? .union [wrap as, wrap bs] =
    some (wrap (sortedSet le (as ++ bs)))

theorem takesSets_intSeq : TakesSets .intSeq intLe .int .intSeq where
  order := isTotalOrder_intLe
  precedes := precedes_int
  item_inj := Value.int.inj
  accepts {v} := by cases v <;> simp [VarType.accepts]
  elements _ := rfl
  intersect _ _ := rfl
  union _ _ := rfl

theorem takesSets_strSeq : TakesSets .strSeq strLe .str .strSeq where
  order := isTotalOrder_strLe
  precedes := precedes_str
  item_inj := Value.str.inj
  accepts {v} := by cases v <;> simp [VarType.accepts]
  elements _ := rfl
  intersect _ _ := rfl
  union _ _ := rfl

namespace TakesSets

variable {α : Type} [DecidableEq α] {t : VarType} {le : α → α → Bool} {item : α → Value}
  {wrap : List α → Value} {as bs : List α}

theorem has_iff (h : TakesSets t le item wrap) {x : Value} :
    (wrap as).Has x ↔ ∃ a ∈ as, item a = x := by
  unfold Value.Has
  rw [h.elements]
  simp

theorem has_item (h : TakesSets t le item wrap) {a : α} : (wrap as).Has (item a) ↔ a ∈ as := by
  rw [h.has_iff]
  constructor
  · rintro ⟨b, hb, heq⟩
    rwa [← h.item_inj heq]
  · exact fun ha => ⟨a, ha, rfl⟩

/-- Sequences with the same elements are lists with the same members. -/
theorem hasSame_iff (h : TakesSets t le item wrap) :
    (wrap as).HasSame (wrap bs) ↔ ∀ a, a ∈ as ↔ a ∈ bs := by
  constructor
  · intro hsame a
    rw [← h.has_item, hsame, h.has_item]
  · intro hmem x
    simp only [h.has_iff, hmem]

/-- An ascending list is the set of its elements. -/
theorem isSetOf (h : TakesSets t le item wrap) (hascending : Ascending le as)
    {member : Value → Prop} (hmember : ∀ x, (∃ a ∈ as, item a = x) ↔ member x) :
    (wrap as).IsSetOf member := by
  refine ⟨as.map item, h.elements as, List.pairwise_map.mpr ?_, fun x => ?_⟩
  · exact hascending.imp fun hab => h.precedes hab.1 hab.2
  · rw [List.mem_map, hmember]

/-- What is in both lists. -/
theorem mem_shared {a : α} : a ∈ sortedSet le (as.filter bs.contains) ↔ a ∈ as ∧ a ∈ bs := by
  rw [mem_sortedSet, List.mem_filter, List.contains_iff_mem]

theorem isSetOf_shared (h : TakesSets t le item wrap) :
    (wrap (sortedSet le (as.filter bs.contains))).IsSetOf
      fun x => (wrap as).Has x ∧ (wrap bs).Has x := by
  refine h.isSetOf (ascending_sortedSet h.order _) fun x => ⟨?_, ?_⟩
  · rintro ⟨a, ha, rfl⟩
    rw [h.has_item, h.has_item]
    exact mem_shared.mp ha
  · rintro ⟨hx, hx'⟩
    obtain ⟨a, ha, rfl⟩ := h.has_iff.mp hx
    exact ⟨a, mem_shared.mpr ⟨ha, h.has_item.mp hx'⟩, rfl⟩

/-- What is in either list. -/
theorem mem_joint {a : α} : a ∈ sortedSet le (as ++ bs) ↔ a ∈ as ∨ a ∈ bs := by
  rw [mem_sortedSet, List.mem_append]

theorem isSetOf_joint (h : TakesSets t le item wrap) :
    (wrap (sortedSet le (as ++ bs))).IsSetOf fun x => (wrap as).Has x ∨ (wrap bs).Has x := by
  refine h.isSetOf (ascending_sortedSet h.order _) fun x => ?_
  simp only [mem_joint, h.has_iff, or_and_right, exists_or]

/-- The results depend on the elements of the lists only, and not on which list is first. -/
theorem sortedSet_congr (h : TakesSets t le item wrap) {cs ds : List α}
    (hmem : ∀ a, a ∈ cs ↔ a ∈ ds) : sortedSet le cs = sortedSet le ds :=
  sortedSet_eq_of_ascending h.order (ascending_sortedSet h.order ds) fun a => by
    rw [mem_sortedSet, hmem]

/-- What is shared stands in the same order among what is there in all. -/
theorem sublist_shared_joint (h : TakesSets t le item wrap) (as bs : List α) :
    (sortedSet le (as.filter bs.contains)).Sublist (sortedSet le (as ++ bs)) :=
  (ascending_sortedSet h.order _).sublist_of_subset h.order (ascending_sortedSet h.order _)
    fun _ ha => mem_joint.mpr (.inl (mem_shared.mp ha).1)

end TakesSets

/-- The elements of a sequence are among those of another, in the same order. -/
def Value.IsSubsequence (v w : Value) : Prop :=
  ∃ vs ws, v.elements? = some vs ∧ w.elements? = some ws ∧ vs.Sublist ws

/-- Two sequences have the elements of two others, whichever is first. -/
def Value.HaveSame (a b a' b' : Value) : Prop :=
  a.HasSame a' ∧ b.HasSame b' ∨ a.HasSame b' ∧ b.HasSame a'

/-- Of two values that are computed from two sequences of a type, the first is the set of what these
have in common and the second the set of what they have together. From sequences with the same
elements the same values are computed. -/
structure Value.HaveSets (t : VarType) (f g : List Value → Option Value) (a b i u : Value) :
    Prop where
  first : f [a, b] = some i
  second : g [a, b] = some u
  typed : t.accepts i ∧ t.accepts u
  shared : i.IsSetOf fun x => a.Has x ∧ b.Has x
  joint : u.IsSetOf fun x => a.Has x ∨ b.Has x
  subsequence : i.IsSubsequence u
  congr : ∀ a' b', t.accepts a' → t.accepts b' → Value.HaveSame a b a' b' →
    f [a', b'] = some i ∧ g [a', b'] = some u

theorem TakesSets.exists_haveSets {α : Type} [DecidableEq α] {t : VarType} {le : α → α → Bool}
    {item : α → Value} {wrap : List α → Value} (h : TakesSets t le item wrap) {a b : Value}
    (ha : t.accepts a) (hb : t.accepts b) :
    ∃ i u, Value.HaveSets t (Recipe.compute? .intersect) (Recipe.compute? .union) a b i u := by
  obtain ⟨as, rfl⟩ := h.accepts.mp ha
  obtain ⟨bs, rfl⟩ := h.accepts.mp hb
  refine ⟨_, _, ⟨h.intersect as bs, h.union as bs, ⟨h.accepts.mpr ⟨_, rfl⟩, h.accepts.mpr ⟨_, rfl⟩⟩,
    h.isSetOf_shared, h.isSetOf_joint,
    ⟨_, _, h.elements _, h.elements _, (h.sublist_shared_joint as bs).map item⟩, ?_⟩⟩
  intro a' b' ha' hb' hsame
  obtain ⟨as', rfl⟩ := h.accepts.mp ha'
  obtain ⟨bs', rfl⟩ := h.accepts.mp hb'
  have hmem : (∀ x, x ∈ as' ∧ x ∈ bs' ↔ x ∈ as ∧ x ∈ bs) ∧
      ∀ x, x ∈ as' ∨ x ∈ bs' ↔ x ∈ as ∨ x ∈ bs := by
    rcases hsame with ⟨hleft, hright⟩ | ⟨hleft, hright⟩
    all_goals rw [h.hasSame_iff] at hleft hright
    · exact ⟨fun x => by rw [hleft, hright], fun x => by rw [hleft, hright]⟩
    · exact ⟨fun x => by rw [hleft, hright, and_comm], fun x => by rw [hleft, hright, or_comm]⟩
  have hshared : sortedSet le (as'.filter bs'.contains) = sortedSet le (as.filter bs.contains) :=
    h.sortedSet_congr (by simpa only [List.mem_filter, List.contains_iff_mem] using hmem.1)
  have hjoint : sortedSet le (as' ++ bs') = sortedSet le (as ++ bs) :=
    h.sortedSet_congr (by simpa only [List.mem_append] using hmem.2)
  rw [h.intersect, h.union, hshared, hjoint]
  exact ⟨rfl, rfl⟩

end Sets

/-! ## The derived variables -/

/-- **What is derived from sequences as sets is exact.** For two variables that are sequences of
integers, or of strings, the rule derives what they have in common and what they have together. For
every two values of the variables, the first of the derived values has exactly the elements that are
in both, the second those that are in either, each once and in ascending order, and the first is a
subsequence of the second. Neither depends on which value comes first, or on the order and the
repetitions of elements in them. -/
theorem BinaryRule.setOps_exact {v w : Variable} {a b : Value} (htype : v.type = w.type)
    (hset : v.type = .intSeq ∨ v.type = .strSeq) (ha : v.type.accepts a) (hb : w.type.accepts b) :
    ∃ d e i u, BinaryRule.setOps.derive v w = [d, e] ∧
      d.name = s!"intersect({v.name}, {w.name})" ∧ e.name = s!"union({v.name}, {w.name})" ∧
      d.bases = [v.index, w.index] ∧ e.bases = [v.index, w.index] ∧
      Value.HaveSets v.type d.compute? e.compute? a b i u := by
  have hderive : BinaryRule.setOps.derive v w = _ := if_pos ⟨htype, hset⟩
  have hsets : ∃ i u, Value.HaveSets v.type (Recipe.compute? .intersect) (Recipe.compute? .union)
      a b i u := by
    rw [← htype] at hb
    generalize v.type = t at hset ha hb
    rcases hset with rfl | rfl
    · exact takesSets_intSeq.exists_haveSets ha hb
    · exact takesSets_strSeq.exists_haveSets ha hb
  obtain ⟨i, u, hsets⟩ := hsets
  exact ⟨_, _, i, u, hderive, rfl, rfl, rfl, rfl, hsets⟩

/-- The sets of two sequences with repeated elements, from other sequences with the same elements in
the other order. -/
theorem BinaryRule.setOps_exact_repeated :
    let v : Variable := { name := "a", type := .intSeq, index := 0, slot := some 0 }
    let w : Variable := { name := "b", type := .intSeq, index := 1, slot := some 1 }
    let a : Value := .intSeq [3, 1, 2, 2]
    let b : Value := .intSeq [2, 5, 3]
    ∃ d e, BinaryRule.setOps.derive v w = [d, e] ∧
      Value.HaveSets .intSeq d.compute? e.compute? a b (.intSeq [2, 3]) (.intSeq [1, 2, 3, 5]) ∧
      d.compute? [.intSeq [5, 5, 3, 2], .intSeq [1, 3, 2]] = some (.intSeq [2, 3]) := by
  intro v w a b
  obtain ⟨d, e, i, u, hderive, -, -, -, -, hsets⟩ :=
    BinaryRule.setOps_exact (v := v) (w := w) (a := a) (b := b) rfl (.inl rfl) rfl rfl
  have hmem {as bs : List Int64} (h : as ⊆ bs ∧ bs ⊆ as) : ∀ x, x ∈ as ↔ x ∈ bs :=
    fun _ => ⟨fun ha => h.1 ha, fun hb => h.2 hb⟩
  have hshared : sortedSet intLe [3, 2, 2] = [2, 3] :=
    sortedSet_eq_of_ascending isTotalOrder_intLe (by unfold Ascending; decide) (hmem (by decide))
  have hjoint : sortedSet intLe [3, 1, 2, 2, 2, 5, 3] = [1, 2, 3, 5] :=
    sortedSet_eq_of_ascending isTotalOrder_intLe (by unfold Ascending; decide) (hmem (by decide))
  have hcomputed : (BinaryRule.setOps.derive v w).map (·.compute? [a, b]) =
      [some (.intSeq (sortedSet intLe [3, 2, 2])),
        some (.intSeq (sortedSet intLe [3, 1, 2, 2, 2, 5, 3]))] := rfl
  rw [hderive, List.map_cons, List.map_singleton, hsets.first, hsets.second, hshared,
    hjoint] at hcomputed
  obtain ⟨rfl, rfl⟩ : i = .intSeq [2, 3] ∧ u = .intSeq [1, 2, 3, 5] := by simpa using hcomputed
  have hleft : a.HasSame (.intSeq [1, 3, 2]) :=
    takesSets_intSeq.hasSame_iff.mpr (hmem (by decide))
  have hright : b.HasSame (.intSeq [5, 5, 3, 2]) :=
    takesSets_intSeq.hasSame_iff.mpr (hmem (by decide))
  exact ⟨d, e, hderive, hsets, (hsets.congr _ _ rfl rfl (.inr ⟨hleft, hright⟩)).1⟩

end LikelyInvariants
