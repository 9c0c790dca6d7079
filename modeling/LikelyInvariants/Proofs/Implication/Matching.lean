import LikelyInvariants.Proofs.Implication.Content

/-!
# What matching returns

The slices of two points are matched by the names of their variables. The names are the keys of the
entries, each key has one entry (`exists_matchBy_eq_map`), and on each side an entry has a slice over
its names (`keyAt_of_itemAt`). So an entry is known by its names, and a slice is returned in one entry
or in none: of the slices of its point over variables of the same names it has to be the last one
(`existsUnique_itemAt_iff`), and the others are lost (`Context.sameNames_lost`). No point has two
slices over the same variables, so where different variables have different names nothing is lost, and
matching by names is matching by variables (`Context.matched_by_name`).
-/

namespace LikelyInvariants

open Contrast

/-! ## Entries and their keys -/

section Entries

variable {α κ : Type} [DecidableEq κ] {key : α → κ} {cmp : κ → κ → Ordering}
  {left right l : List α} {keys : List κ} {a : α} {i j : Nat}

/-- There is one entry for each key. -/
theorem exists_matchBy_eq_map (key : α → κ) (cmp : κ → κ → Ordering) (left right : List α) :
    ∃ keys : List κ, keys.Nodup ∧ (∀ a ∈ left ++ right, key a ∈ keys) ∧
      matchBy key cmp left right =
        keys.map fun k => (left.reverse.find? (key · = k), right.reverse.find? (key · = k)) := by
  refine ⟨_, ?_, fun a ha => ?_, rfl⟩
  · exact (List.mergeSort_perm _ _).nodup_iff.mpr (nodup_eraseDups _)
  · rw [List.mem_mergeSort, List.mem_eraseDups]
    exact List.mem_map_of_mem ha

/-- The item of a list with the key at a position, the last one if there are several. -/
def itemAt (key : α → κ) (l : List α) (keys : List κ) (i : Nat) : Option α :=
  keys[i]?.bind fun k => l.reverse.find? (key · = k)

/-- What is returned at a position has its key, and is the last item with this key. -/
theorem keyAt_of_itemAt (h : itemAt key l keys i = some a) :
    keys[i]? = some (key a) ∧ l.reverse.find? (key · = key a) = some a := by
  obtain ⟨k, hk, hfound⟩ := Option.bind_eq_some_iff.mp h
  obtain rfl : key a = k := by simpa using List.find?_some hfound
  exact ⟨hk, hfound⟩

theorem mem_of_itemAt (h : itemAt key l keys i = some a) : a ∈ l :=
  List.mem_reverse.mp (List.mem_of_find?_eq_some (keyAt_of_itemAt h).2)

omit [DecidableEq κ] in
/-- No two positions have the same key. -/
theorem position_eq_iff (hkeys : keys.Nodup) {k k' : κ} (hi : keys[i]? = some k)
    (hj : keys[j]? = some k') : i = j ↔ k = k' := by
  obtain ⟨hlt, rfl⟩ := List.getElem?_eq_some_iff.mp hi
  obtain ⟨hlt', rfl⟩ := List.getElem?_eq_some_iff.mp hj
  exact hkeys.getElem_inj_iff.symm

/-- No item of a list that comes after this one has the same key. -/
def IsLast (key : α → κ) (l : List α) (a : α) : Prop :=
  ∃ before after, l = before ++ a :: after ∧ ∀ b ∈ after, key b ≠ key a

theorem find?_reverse_eq_self_iff : l.reverse.find? (key · = key a) = some a ↔ IsLast key l a := by
  rw [List.find?_eq_some_iff_append]
  constructor
  · rintro ⟨-, after, before, hl, hafter⟩
    refine ⟨before.reverse, after.reverse, ?_, fun b hb => ?_⟩
    · rw [← l.reverse_reverse, hl]
      simp
    · simpa using hafter b (List.mem_reverse.mp hb)
  · rintro ⟨before, after, rfl, hafter⟩
    refine ⟨by simp, after.reverse, before.reverse, by simp, fun b hb => ?_⟩
    simpa using hafter b (List.mem_reverse.mp hb)

/-- An item that is the only one with its key is the last one. -/
theorem isLast_of_only (ha : a ∈ l) (honly : ∀ b ∈ l, key b = key a → b = a) : IsLast key l a := by
  refine find?_reverse_eq_self_iff.mp ?_
  cases hfound : l.reverse.find? (key · = key a) with
  | none => simpa using List.find?_eq_none.mp hfound a (List.mem_reverse.mpr ha)
  | some b =>
    have hb : key b = key a := by simpa using List.find?_some hfound
    rw [honly b (List.mem_reverse.mp (List.mem_of_find?_eq_some hfound)) hb]

/-- Of the items with one key the last one is returned, once. -/
theorem existsUnique_itemAt_iff (hkeys : keys.Nodup) (hmem : ∀ b ∈ l, key b ∈ keys) :
    (∃! i, itemAt key l keys i = some a) ↔ IsLast key l a := by
  rw [← find?_reverse_eq_self_iff]
  constructor
  · rintro ⟨i, hi, -⟩
    exact (keyAt_of_itemAt hi).2
  · intro hlast
    have ha : a ∈ l := List.mem_reverse.mp (List.mem_of_find?_eq_some hlast)
    obtain ⟨i, hi⟩ := List.mem_iff_getElem?.mp (hmem a ha)
    refine ⟨i, ?_, fun j hj => (position_eq_iff hkeys (keyAt_of_itemAt hj).1 hi).mpr rfl⟩
    show itemAt key l keys i = some a
    rw [itemAt, hi, Option.bind_some, hlast]

end Entries

/-! ## Slices of two points -/

section Slices

variable {p : Point} {s : Slice}

/-- The names of the variables of a slice. -/
def Point.namesOf (p : Point) (s : Slice) : List String := p.catalog.names s.key

/-- No other slice of the point is over variables of the same names. -/
def Point.OnlyOfItsNames (p : Point) (s : Slice) : Prop :=
  ∀ t ∈ p.slices, p.namesOf t = p.namesOf s → t = s

/-- No slice of the point that comes after this one is over variables of the same names. -/
def Point.LastOfItsNames (p : Point) (s : Slice) : Prop := IsLast p.namesOf p.slices s

/-- Where different variables have different names, each slice is the only one of its names. -/
theorem Point.Keyed.onlyOfItsNames (h : p.Keyed) (hnames : (p.catalog.vars.map (·.name)).Nodup)
    (hs : s ∈ p.slices) : p.OnlyOfItsNames s := by
  intro t ht hsame
  have hkey := Catalog.key_eq_of_names_eq hnames (h.lt t ht) (h.lt s hs) hsame
  exact List.inj_on_of_nodup_map h.nodup ht hs hkey

/-- The slice on a side of the entry at a position. -/
def sliceAt (side : Option NamedSlice × Option NamedSlice → Option NamedSlice) (l r : Point)
    (i : Nat) : Option Slice :=
  ((matchSlices l r)[i]?.bind side).map NamedSlice.slice

theorem find?_namedSlices (p : Point) (k : List String) :
    (p.namedSlices.reverse.find? (·.names = k)).map NamedSlice.slice =
      p.slices.reverse.find? (p.namesOf · = k) := by
  rw [Point.namedSlices, ← List.map_reverse, List.find?_map, Option.map_map]
  exact congrFun Option.map_id _

/-- The slices on both sides of the entries are looked up by the same names. -/
theorem exists_sliceAt_eq (l r : Point) : ∃ keys : List (List String), keys.Nodup ∧
    (∀ s ∈ l.slices, l.namesOf s ∈ keys) ∧ (∀ s ∈ r.slices, r.namesOf s ∈ keys) ∧
    sliceAt Prod.fst l r = itemAt l.namesOf l.slices keys ∧
    sliceAt Prod.snd l r = itemAt r.namesOf r.slices keys := by
  obtain ⟨keys, hkeys, hmem, hmatched⟩ := exists_matchBy_eq_map NamedSlice.names
    compareSliceNames l.namedSlices r.namedSlices
  have hnamed {p : Point} {s : Slice} (hs : s ∈ p.slices) :
      ({ names := p.namesOf s, slice := s } : NamedSlice) ∈ p.namedSlices :=
    List.mem_map_of_mem hs
  refine ⟨keys, hkeys, fun s hs => hmem _ (List.mem_append_left _ (hnamed hs)),
    fun s hs => hmem _ (List.mem_append_right _ (hnamed hs)), ?_, ?_⟩ <;>
  · funext i
    rw [sliceAt, matchSlices, hmatched, List.getElem?_map, itemAt]
    cases keys[i]? with
    | none => rfl
    | some k => exact find?_namedSlices _ k

end Slices

/-! ## Slices of two children -/

namespace Context

section Children

variable {ctx : Context} {i j : Nat} {l r : Point}

/-- **Slices are matched by the names of their variables.** For any two points of a reachable
context that have the same variables, what is returned on a side is a slice of the point on that
side, and two slices are in one entry exactly if their variables have the same names. Of the slices
of a point over variables of the same names the last one is returned exactly once and the others are
not returned; so a slice that is the only one of its names is. If no two variables have the same name,
each slice of either point is returned exactly once on its side, and two are in one entry exactly if
they are over the same variables. -/
theorem matched_by_name (h : ctx.Attained) (hl : ctx.points[i]? = some l)
    (hr : ctx.points[j]? = some r) (hcatalog : l.catalog = r.catalog) :
    (∀ m s, sliceAt Prod.fst l r m = some s → s ∈ l.slices) ∧
    (∀ n t, sliceAt Prod.snd l r n = some t → t ∈ r.slices) ∧
    (∀ m n s t, sliceAt Prod.fst l r m = some s → sliceAt Prod.snd l r n = some t →
      (m = n ↔ l.namesOf s = r.namesOf t)) ∧
    (∀ s, (∃! m, sliceAt Prod.fst l r m = some s) ↔ l.LastOfItsNames s) ∧
    (∀ t, (∃! n, sliceAt Prod.snd l r n = some t) ↔ r.LastOfItsNames t) ∧
    (∀ s ∈ l.slices, l.OnlyOfItsNames s → ∃! m, sliceAt Prod.fst l r m = some s) ∧
    (∀ t ∈ r.slices, r.OnlyOfItsNames t → ∃! n, sliceAt Prod.snd l r n = some t) ∧
    ((l.catalog.vars.map (·.name)).Nodup →
      (∀ s ∈ l.slices, ∃! m, sliceAt Prod.fst l r m = some s) ∧
      (∀ t ∈ r.slices, ∃! n, sliceAt Prod.snd l r n = some t) ∧
      ∀ m n s t, sliceAt Prod.fst l r m = some s → sliceAt Prod.snd l r n = some t →
        (m = n ↔ s.key = t.key)) := by
  obtain ⟨keys, hkeys, hleft, hright, hfst, hsnd⟩ := exists_sliceAt_eq l r
  rw [hfst, hsnd]
  have hentry : ∀ m n s t, itemAt l.namesOf l.slices keys m = some s →
      itemAt r.namesOf r.slices keys n = some t → (m = n ↔ l.namesOf s = r.namesOf t) :=
    fun m n s t hs ht => position_eq_iff hkeys (keyAt_of_itemAt hs).1 (keyAt_of_itemAt ht).1
  have hlastLeft : ∀ s, (∃! m, itemAt l.namesOf l.slices keys m = some s) ↔ l.LastOfItsNames s :=
    fun _ => existsUnique_itemAt_iff hkeys hleft
  have hlastRight : ∀ t, (∃! n, itemAt r.namesOf r.slices keys n = some t) ↔ r.LastOfItsNames t :=
    fun _ => existsUnique_itemAt_iff hkeys hright
  have honceLeft : ∀ s ∈ l.slices, l.OnlyOfItsNames s →
      ∃! m, itemAt l.namesOf l.slices keys m = some s :=
    fun s hs honly => (hlastLeft s).mpr (isLast_of_only hs honly)
  have honceRight : ∀ t ∈ r.slices, r.OnlyOfItsNames t →
      ∃! n, itemAt r.namesOf r.slices keys n = some t :=
    fun t ht honly => (hlastRight t).mpr (isLast_of_only ht honly)
  refine ⟨fun m s hs => mem_of_itemAt hs, fun n t ht => mem_of_itemAt ht, hentry,
    hlastLeft, hlastRight, honceLeft, honceRight,
    fun hnames => ⟨fun s hs => ?_, fun t ht => ?_, fun m n s t hs ht => ?_⟩⟩
  · exact honceLeft s hs ((h.keyed hl).onlyOfItsNames hnames hs)
  · exact honceRight t ht ((h.keyed hr).onlyOfItsNames (hcatalog ▸ hnames) ht)
  · rw [hentry m n s t hs ht, Point.namesOf, Point.namesOf, ← hcatalog]
    refine ⟨Catalog.key_eq_of_names_eq hnames ((h.keyed hl).lt s (mem_of_itemAt hs)) ?_,
      congrArg _⟩
    rw [hcatalog]
    exact (h.keyed hr).lt t (mem_of_itemAt ht)

end Children

/-! ## Two variables -/

section TwoVariables

/-- A point with two variables is split by the first, and each child takes a sample three times. -/
def namedVariables (first second : String) : List Action :=
  [.addPoint "P" [{ name := first, type := .int }, { name := second, type := .int }],
    .split 0 [.compare first .gt 0],
    .add 0 ⟨[some ⟨.int 1, true⟩, some ⟨.int 7, true⟩]⟩ 3,
    .add 0 ⟨[some ⟨.int (-1), true⟩, some ⟨.int 7, true⟩]⟩ 3]

/-- A child of the point. -/
def namedChild (first second : String) (polarity : Bool) (n : Int64) : Point where
  name := childName "P" (.compare first .gt 0) polarity
  kind := .conditional 0 (.compare first .gt 0) polarity
  catalog := .ofList [{ name := first, type := .int }, { name := second, type := .int }]
  slices := [valueSlice 0 [n] 3, valueSlice 1 [7] 3]
  samples := 3
  viewsOpen := true
  nextId := 2

/-- With different names, all four slices are returned. -/
theorem matched_by_name_different :
    let ctx := ofValues.after (namedVariables "x" "y")
    let l := namedChild "x" "y" false (-1)
    let r := namedChild "x" "y" true 1
    ctx.Attained ∧ ctx.points[1]? = some l ∧ ctx.points[2]? = some r ∧
      (∀ s ∈ l.slices, ∃! m, sliceAt Prod.fst l r m = some s) ∧
      ∀ t ∈ r.slices, ∃! n, sliceAt Prod.snd l r n = some t := by
  intro ctx l r
  have hattained : ctx.Attained := ⟨_, _, rfl, rfl⟩
  have hl : ctx.points[1]? = some l := by decide +kernel
  have hr : ctx.points[2]? = some r := by decide +kernel
  obtain ⟨hleft, hright, -⟩ :=
    (matched_by_name hattained hl hr rfl).2.2.2.2.2.2.2 (by decide +kernel)
  exact ⟨hattained, hl, hr, hleft, hright⟩

/-- With the same name, the slice over the first variable is not returned on either side. -/
theorem sameNames_lost :
    let ctx := ofValues.after (namedVariables "x" "x")
    let l := namedChild "x" "x" false (-1)
    let r := namedChild "x" "x" true 1
    ctx.Attained ∧ ctx.points[0]?.map Point.children = some [1, 2] ∧ ctx.points[1]? = some l ∧
      ctx.points[2]? = some r ∧ l.catalog = r.catalog ∧
      (∃ s ∈ l.slices, s.key = [0] ∧ ∀ m, sliceAt Prod.fst l r m ≠ some s) ∧
      ∃ t ∈ r.slices, t.key = [0] ∧ ∀ n, sliceAt Prod.snd l r n ≠ some t := by
  intro ctx l r
  obtain ⟨keys, -, -, -, hfst, hsnd⟩ := exists_sliceAt_eq l r
  refine ⟨⟨_, _, rfl, rfl⟩, by decide +kernel, by decide +kernel, by decide +kernel, rfl,
    ⟨l.slices.head (by decide), List.head_mem _, rfl, fun m h => ?_⟩,
    ⟨r.slices.head (by decide), List.head_mem _, rfl, fun n h => ?_⟩⟩
  · rw [hfst] at h
    exact absurd (keyAt_of_itemAt h).2 (by decide +kernel)
  · rw [hsnd] at h
    exact absurd (keyAt_of_itemAt h).2 (by decide +kernel)

end TwoVariables

end Context

end LikelyInvariants
