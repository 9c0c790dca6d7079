import LikelyInvariants.Point.Views

/-!
# Positions

A catalog only grows, at its end, so each variable stands at the position it was given
(`Catalog.IsIndexed`). Every key that views are opened for lies within the catalog, and where no
name occurs twice such a key is determined by the names of its variables.
-/

namespace LikelyInvariants.Catalog

/-! ## Growth -/

section Growth

/-- Every variable knows its position. -/
def IsIndexed (c : Catalog) : Prop := ∀ (i : Nat) (v : Variable), c.var? i = some v → v.index = i

@[simp] theorem append_nil (c : Catalog) : c.append [] = c := rfl

theorem append_append (c : Catalog) (ds es : List Declaration) :
    (c.append ds).append es = c.append (ds ++ es) := by
  simp [append]

theorem isIndexed_empty : IsIndexed {} := by
  intro i v hv
  simp [var?] at hv

theorem IsIndexed.pairwise_index {c : Catalog} (h : c.IsIndexed) :
    c.vars.Pairwise (·.index < ·.index) := by
  refine List.pairwise_iff_getElem.mpr fun i j hi hj hij => ?_
  rw [h i _ (List.getElem?_eq_getElem hi), h j _ (List.getElem?_eq_getElem hj)]
  exact hij

theorem IsIndexed.push {c : Catalog} (h : c.IsIndexed) (d : Declaration) :
    (c.push d).IsIndexed := by
  intro i v hv
  unfold var? Catalog.push at hv
  rcases Nat.lt_or_ge i c.vars.length with hlt | hge
  · rw [List.getElem?_append_left hlt] at hv
    exact h i v hv
  · have hlast := (List.getElem?_eq_some_iff.mp hv).1
    simp only [List.length_append, List.length_singleton] at hlast
    obtain rfl : i = c.vars.length := by omega
    rw [List.getElem?_concat_length, Option.some.injEq] at hv
    rw [← hv]
    rfl

theorem IsIndexed.append {c : Catalog} (h : c.IsIndexed) (ds : List Declaration) :
    (c.append ds).IsIndexed := by
  induction ds generalizing c with
  | nil => exact h
  | cons d ds ih => exact ih (h.push d)

theorem isIndexed_ofList (ds : List Declaration) : (ofList ds).IsIndexed :=
  isIndexed_empty.append ds

/-- The variables that are added know their positions and are as they were declared. -/
theorem vars_append (c : Catalog) (ds : List Declaration) :
    ∃ new : List Variable, (c.append ds).vars = c.vars ++ new ∧
      new.map Variable.toDeclaration = ds ∧
      new.map Variable.index = List.range' c.size ds.length := by
  induction ds generalizing c with
  | nil => exact ⟨[], by simp [append], rfl, rfl⟩
  | cons d ds ih =>
    obtain ⟨new, hvars, hdeclared, hindex⟩ := ih (c.push d)
    obtain ⟨v, hv, hd, hsize⟩ : ∃ v : Variable, (c.push d).vars = c.vars ++ [v] ∧
        v.toDeclaration = d ∧ v.index = c.size := ⟨_, rfl, rfl, rfl⟩
    have hpush : (c.push d).size = c.size + 1 := by simp [size, hv]
    refine ⟨v :: new, ?_, ?_, ?_⟩
    · show ((c.push d).append ds).vars = _
      rw [hvars, hv, List.append_assoc]
      rfl
    · rw [List.map_cons, hd, hdeclared]
    · rw [List.map_cons, hsize, hindex, hpush, List.length_cons, List.range'_succ]

/-- Variables that are added do not move the others. -/
theorem var?_append {c : Catalog} {i : Nat} {v : Variable} (hv : c.var? i = some v)
    (ds : List Declaration) : (c.append ds).var? i = some v := by
  obtain ⟨new, hvars, -⟩ := c.vars_append ds
  have hlt := (List.getElem?_eq_some_iff.mp hv).1
  unfold var? at hv ⊢
  rw [hvars, List.getElem?_append_left hlt, hv]

theorem size_append (c : Catalog) (ds : List Declaration) :
    (c.append ds).size = c.size + ds.length := by
  obtain ⟨new, hvars, hdeclared, -⟩ := c.vars_append ds
  rw [size, hvars, List.length_append, ← hdeclared, List.length_map]
  rfl

theorem ofList_append (ds es : List Declaration) : (ofList ds).append es = ofList (ds ++ es) :=
  append_append {} ds es

end Growth

/-! ## Slots -/

section Slots

/-- The variables that are not constant share the slots of a sample among them, in catalog order. -/
structure IsSlotted (c : Catalog) : Prop where
  constants : c.constants = c.vars.countP (·.isConstant)
  slot_eq_none_iff : ∀ v ∈ c.vars, v.slot = none ↔ v.isConstant
  slots : c.vars.filterMap (·.slot) = List.range c.slotCount

variable {c : Catalog}

theorem isSlotted_empty : IsSlotted {} := ⟨rfl, by simp, rfl⟩

theorem IsSlotted.push (h : c.IsSlotted) (d : Declaration) : (c.push d).IsSlotted := by
  have hle : c.constants ≤ c.size := h.constants ▸ List.countP_le_length
  cases hd : d.isConstant with
  | true =>
    have hcount : (c.push d).slotCount = c.slotCount := by
      simp [slotCount, size, Catalog.push, hd]
    refine ⟨?_, fun v hv => ?_, ?_⟩
    · simp [Catalog.push, hd, h.constants]
    · rcases List.mem_append.mp hv with hv | hv
      · exact h.slot_eq_none_iff v hv
      · obtain rfl := List.mem_singleton.mp hv
        simp [hd]
    · rw [hcount, ← h.slots]
      simp [Catalog.push, hd]
  | false =>
    have hcount : (c.push d).slotCount = c.slotCount + 1 := by
      simp only [slotCount, size, Catalog.push, hd, List.length_append, List.length_singleton,
        Bool.false_eq_true, if_false] at hle ⊢
      omega
    refine ⟨?_, fun v hv => ?_, ?_⟩
    · simp [Catalog.push, hd, h.constants]
    · rcases List.mem_append.mp hv with hv | hv
      · exact h.slot_eq_none_iff v hv
      · obtain rfl := List.mem_singleton.mp hv
        simp [hd]
    · rw [hcount, List.range_succ, ← h.slots]
      simp [Catalog.push, hd]

theorem IsSlotted.append (h : c.IsSlotted) (ds : List Declaration) : (c.append ds).IsSlotted := by
  induction ds generalizing c with
  | nil => exact h
  | cons d ds ih => exact ih (h.push d)

theorem isSlotted_ofList (ds : List Declaration) : (ofList ds).IsSlotted :=
  isSlotted_empty.append ds

theorem IsSlotted.slot_lt (h : c.IsSlotted) {i k : Nat} {v : Variable} (hv : c.var? i = some v)
    (hk : v.slot = some k) : k < c.slotCount := by
  rw [← List.mem_range, ← h.slots]
  exact List.mem_filterMap.mpr ⟨v, List.mem_of_getElem? hv, hk⟩

/-- No two variables have the same slot. -/
theorem IsSlotted.slot_inj (h : c.IsSlotted) {i j k : Nat} {v w : Variable}
    (hv : c.var? i = some v) (hw : c.var? j = some w) (hk : v.slot = some k)
    (hk' : w.slot = some k) : i = j := by
  have hascending : c.vars.Pairwise fun v w => ∀ k, v.slot = some k → ∀ l, w.slot = some l →
      k < l := by
    rw [← List.pairwise_filterMap, h.slots]
    exact List.pairwise_lt_range
  obtain ⟨hi, rfl⟩ := List.getElem?_eq_some_iff.mp hv
  obtain ⟨hj, rfl⟩ := List.getElem?_eq_some_iff.mp hw
  rw [List.pairwise_iff_getElem] at hascending
  rcases Nat.lt_trichotomy i j with hlt | heq | hgt
  · exact absurd (hascending i j hi hj hlt k hk k hk') (Nat.lt_irrefl k)
  · exact heq
  · exact absurd (hascending j i hj hi hgt k hk' k hk) (Nat.lt_irrefl k)

end Slots

/-! ## Keys -/

section Keys

variable {c : Catalog}

/-- Over an empty range there is no slice to open. -/
theorem viewKeys_self (c : Catalog) (n : Nat) (ternary : Bool) :
    c.viewKeys n n ternary = [] := by
  have hnone : ∀ i, n - max i n = 0 := by omega
  cases ternary <;> simp [viewKeys, pairKeys, tripleKeys, scalarsIn, positions, hnone]

theorem mem_positions {first limit i : Nat} :
    i ∈ positions first limit ↔ first ≤ i ∧ i < limit := by
  simp [positions]
  omega

theorem mem_scalarsIn {first limit : Nat} {x : Nat × Variable} :
    x ∈ c.scalarsIn first limit ↔
      (first ≤ x.1 ∧ x.1 < limit) ∧ c.var? x.1 = some x.2 ∧ x.2.type.isArray = false := by
  obtain ⟨i, v⟩ := x
  simp only [scalarsIn, List.mem_filterMap, mem_positions, Option.map_eq_some_iff,
    Option.filter_eq_some_iff, Bool.not_eq_true', Prod.mk.injEq]
  constructor
  · rintro ⟨j, hj, w, hw, rfl, rfl⟩
    exact ⟨hj, hw⟩
  · rintro ⟨hi, hv⟩
    exact ⟨i, hi, v, hv, rfl, rfl⟩

/-- The keys that are opened over a range lie below its end. -/
theorem lt_of_mem_viewKeys {min limit : Nat} {ternary : Bool} {key : List Nat}
    (hkey : key ∈ c.viewKeys min limit ternary) : ∀ i ∈ key, i < limit := by
  unfold viewKeys at hkey
  rw [List.mem_append, List.mem_append] at hkey
  rcases hkey with (hkey | hkey) | hkey
  · obtain ⟨i, hi, rfl⟩ := List.mem_map.mp hkey
    simpa using (mem_positions.mp hi).2
  · obtain ⟨i, hi, hkey⟩ := List.mem_flatMap.mp hkey
    obtain ⟨j, hj, rfl⟩ := List.mem_map.mp hkey
    simpa using ⟨(mem_positions.mp hi).2, (mem_positions.mp hj).2⟩
  · split at hkey
    · obtain ⟨u, hu, hkey⟩ := List.mem_flatMap.mp hkey
      obtain ⟨v, hv, hkey⟩ := List.mem_flatMap.mp hkey
      obtain ⟨w, hw, rfl⟩ := List.mem_map.mp hkey
      have hlast := (mem_scalarsIn.mp (List.mem_filter.mp hw).1).1.2
      simpa using ⟨(mem_scalarsIn.mp hu).1.2, (mem_scalarsIn.mp hv).1.2, hlast⟩
    · simp at hkey

theorem names_cons_of_lt {i : Nat} (hi : i < c.size) (key : List Nat) :
    ∃ v, c.vars[i]? = some v ∧ c.names (i :: key) = v.name :: c.names key := by
  obtain ⟨v, hv⟩ : ∃ v, c.vars[i]? = some v := ⟨_, List.getElem?_eq_getElem hi⟩
  exact ⟨v, hv, by simp [names, var?, hv]⟩

/-- The name of the variable at a position. -/
def nameAt (c : Catalog) (i : Nat) : String := (c.names [i]).headD ""

theorem names_eq_map {key : List Nat} (h : ∀ i ∈ key, i < c.size) :
    c.names key = key.map c.nameAt := by
  induction key with
  | nil => rfl
  | cons i key ih =>
    obtain ⟨v, hv, hnames⟩ := names_cons_of_lt (h i List.mem_cons_self) key
    obtain ⟨w, hw, hname⟩ := names_cons_of_lt (h i List.mem_cons_self) []
    rw [hv] at hw
    cases hw
    rw [hnames, ih fun j hj => h j (List.mem_cons_of_mem i hj), List.map_cons, nameAt, hname]
    rfl

/-- Where no name occurs twice, keys over the same names are the same. -/
theorem key_eq_of_names_eq (hnodup : (c.vars.map (·.name)).Nodup) :
    ∀ {k l : List Nat}, (∀ i ∈ k, i < c.size) → (∀ i ∈ l, i < c.size) →
      c.names k = c.names l → k = l
  | [], [], _, _, _ => rfl
  | [], j :: l, _, hl, h => by
    obtain ⟨w, -, hnames⟩ := names_cons_of_lt (hl j List.mem_cons_self) l
    rw [hnames] at h
    cases h
  | i :: k, [], hk, _, h => by
    obtain ⟨v, -, hnames⟩ := names_cons_of_lt (hk i List.mem_cons_self) k
    rw [hnames] at h
    cases h
  | i :: k, j :: l, hk, hl, h => by
    have hi : i < c.size := hk i List.mem_cons_self
    obtain ⟨v, hv, hfirst⟩ := names_cons_of_lt hi k
    obtain ⟨w, hw, hsecond⟩ := names_cons_of_lt (hl j List.mem_cons_self) l
    rw [hfirst, hsecond] at h
    obtain ⟨hname, hrest⟩ := List.cons.inj h
    obtain rfl : i = j := by
      refine (List.getElem?_inj (by rw [List.length_map]; exact hi) hnodup).mp ?_
      rw [List.getElem?_map, List.getElem?_map, hv, hw]
      exact congrArg some hname
    rw [key_eq_of_names_eq hnodup (fun x hx => hk x (List.mem_cons_of_mem i hx))
      (fun x hx => hl x (List.mem_cons_of_mem i hx)) hrest]

end Keys

end LikelyInvariants.Catalog
