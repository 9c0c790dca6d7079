import LikelyInvariants.Implication.OfChildren
import LikelyInvariants.Proofs.Partition

/-!
# Where implications come from

What two points are contrasted by comes from their slices and conditions. The exclusive pairs are
pairs of **rivals**: two invariants over the same names that exclude each other, or the two
conditions (`Contrast.Rivals`). What is one-sided is an invariant of a point (`Contrast.Owns`). An
implication stays in the **half** of one of the points, and the places of its terms among the
exclusive ones of that half tell whether it is built (`Contrast.Half.Yields`). So it leads from one
of a pair of rivals to something its own point owns, and goes both ways only if the latter has a
rival as well (`Contrast.of_mem_implications`).
-/

namespace LikelyInvariants

/-- The point a term is about. -/
def TermSource.point : TermSource → Nat
  | invariant p _ => p
  | condition p => p

namespace Implication

/-- Two implications relate the same terms, in whatever way. -/
def RelatesAs (i j : Implication) : Prop :=
  i.predicate.source = j.predicate.source ∧ i.consequent.source = j.consequent.source

/-- An implication is about a term and another one. -/
def Mentions (i : Implication) (a : TermSource) : Prop :=
  a = i.predicate.source ∨ a = i.consequent.source

theorem isSameAs_iff {i j : Implication} : i.isSameAs j ↔ i.RelatesAs j ∧ i.iff = j.iff := by
  simp [isSameAs, RelatesAs]

end Implication

/-! ## Matching -/

section Matching

variable {α κ : Type} [DecidableEq κ] {key : α → κ} {cmp : κ → κ → Ordering} {left right : List α}

theorem mem_matchBy {x : Option α × Option α} :
    x ∈ matchBy key cmp left right ↔ ∃ a ∈ left ++ right,
      x = (left.reverse.find? (key · = key a), right.reverse.find? (key · = key a)) := by
  unfold matchBy
  rw [List.mem_map]
  simp only [List.mem_mergeSort, List.mem_eraseDups]
  constructor
  · rintro ⟨k, hk, rfl⟩
    obtain ⟨a, ha, rfl⟩ := List.mem_map.mp hk
    exact ⟨a, ha, rfl⟩
  · rintro ⟨a, ha, rfl⟩
    exact ⟨key a, List.mem_map_of_mem ha, rfl⟩

/-- With the keys in order, matching is looking each of them up. -/
theorem matchBy_of_keys (keys : List κ) (h : ((left ++ right).map key).eraseDups = keys)
    (hsorted : keys.Pairwise fun k l => (cmp k l).isLE) :
    matchBy key cmp left right =
      keys.map fun k => (left.reverse.find? (key · = k), right.reverse.find? (key · = k)) := by
  unfold matchBy
  dsimp only
  rw [h, List.mergeSort_of_pairwise hsorted]

/-- What is matched comes from either side and has the same key. -/
theorem of_mem_matchBy {x : Option α × Option α} (h : x ∈ matchBy key cmp left right) :
    ∃ k, (∀ a, x.1 = some a → a ∈ left ∧ key a = k) ∧
      ∀ b, x.2 = some b → b ∈ right ∧ key b = k := by
  obtain ⟨c, -, rfl⟩ := mem_matchBy.mp h
  refine ⟨key c, fun a ha => ?_, fun b hb => ?_⟩
  · exact ⟨List.mem_reverse.mp (List.mem_of_find?_eq_some ha), by simpa using List.find?_some ha⟩
  · exact ⟨List.mem_reverse.mp (List.mem_of_find?_eq_some hb), by simpa using List.find?_some hb⟩

/-- No place up to some place is the first one of its kind if the first one comes later. -/
theorem all_findIdx?_iff {l : List α} {p : α → Bool} {i : Nat} :
    (l.findIdx? p).all (i < ·) ↔ ∀ a ∈ l.take (i + 1), p a = false := by
  cases hfound : l.findIdx? p with
  | none =>
    have hnone := List.findIdx?_eq_none_iff.mp hfound
    simpa using fun a ha => hnone a (List.mem_of_mem_take ha)
  | some k =>
    obtain ⟨hk, hp, hbefore⟩ := List.findIdx?_eq_some_iff_getElem.mp hfound
    simp only [Option.all_some, decide_eq_true_eq]
    constructor
    · intro hlt a ha
      obtain ⟨j, hj, rfl⟩ := List.mem_take_iff_getElem.mp ha
      simpa using hbefore j (by omega)
    · intro hnone
      rcases Nat.lt_or_ge i k with hlt | hge
      · exact hlt
      · have hfalse := hnone l[k] (List.mem_take_iff_getElem.mpr ⟨k, by omega, rfl⟩)
        rw [hp] at hfalse
        cases hfalse

end Matching

namespace Contrast

/-! ## Contrasts -/

section Parts

variable {l r : Nat × Point}

/-- An invariant of a slice of a point. -/
inductive Owns (p : Nat × Point) : TermSource → Prop
  | invariant {s : Slice} {e : SliceEntry} (hs : s ∈ p.2.slices) (he : e ∈ s.entries) :
      Owns p (.invariant p.1 e.id)

/-- Two properties of two points that exclude each other. -/
inductive Rivals (l r : Nat × Point) : TermSource → TermSource → Prop
  | invariants {s t : Slice} {e f : SliceEntry} (hs : s ∈ l.2.slices) (he : e ∈ s.entries)
      (ht : t ∈ r.2.slices) (hf : f ∈ t.entries)
      (hnames : l.2.catalog.names s.key = r.2.catalog.names t.key) (h : e.inv.excludes f.inv) :
      Rivals l r (.invariant l.1 e.id) (.invariant r.1 f.id)
  | conditions : Rivals l r (.condition l.1) (.condition r.1)

theorem mem_namedSlices {p : Point} {n : NamedSlice} (h : n ∈ p.namedSlices) :
    n.slice ∈ p.slices ∧ n.names = p.catalog.names n.slice.key := by
  obtain ⟨s, hs, rfl⟩ := List.mem_map.mp h
  exact ⟨hs, rfl⟩

/-- Terms of a slice that may be absent. -/
theorem mem_terms {o : Option NamedSlice} {i : Nat} {t : SliceTerm}
    (h : t ∈ o.elim [] (·.terms i)) :
    ∃ n e, o = some n ∧ e ∈ n.slice.entries ∧ t.inv = e.inv ∧ t.term = n.termOf i e := by
  cases o with
  | none => simp at h
  | some n =>
    obtain ⟨e, he, rfl⟩ := List.mem_map.mp h
    exact ⟨n, e, rfl, he, rfl, rfl⟩

theorem mem_exclusivePairs {ls rs : List SliceTerm} {x : Term × Term} :
    x ∈ exclusivePairs ls rs ↔
      ∃ a ∈ ls, ∃ b ∈ rs, a.inv.excludes b.inv ∧ x = (a.term, b.term) := by
  unfold exclusivePairs
  simp only [List.mem_flatMap, List.mem_map, List.mem_filter]
  constructor
  · rintro ⟨a, ha, b, ⟨hb, hexcludes⟩, rfl⟩
    exact ⟨a, ha, b, hb, hexcludes, rfl⟩
  · rintro ⟨a, ha, b, hb, hexcludes, rfl⟩
    exact ⟨a, ha, b, ⟨hb, hexcludes⟩, rfl⟩

theorem rivals_of_mem_ofSlices {m : Option NamedSlice × Option NamedSlice}
    (hm : m ∈ matchSlices l.2 r.2) {x : Term × Term} (h : x ∈ (ofSlices l.1 r.1 m).exclusive) :
    Rivals l r x.1.source x.2.source := by
  obtain ⟨k, hleft, hright⟩ := of_mem_matchBy hm
  obtain ⟨a, ha, b, hb, hexcludes, rfl⟩ := mem_exclusivePairs.mp h
  obtain ⟨n, e, hn, he, hinv, hterm⟩ := mem_terms ha
  obtain ⟨n', f, hn', hf, hinv', hterm'⟩ := mem_terms hb
  obtain ⟨hslice, hnames⟩ := mem_namedSlices (hleft n hn).1
  obtain ⟨hslice', hnames'⟩ := mem_namedSlices (hright n' hn').1
  rw [hinv, hinv'] at hexcludes
  simp only [hterm, hterm']
  refine .invariants hslice he hslice' hf ?_ hexcludes
  rw [← hnames, ← hnames', (hleft n hn).2, (hright n' hn').2]

theorem owns_of_mem_ofSlices {m : Option NamedSlice × Option NamedSlice}
    (hm : m ∈ matchSlices l.2 r.2) {y : Option Term × Option Term}
    (h : y ∈ (ofSlices l.1 r.1 m).oneSided) :
    (∀ t, y.1 = some t → Owns l t.source) ∧ ∀ t, y.2 = some t → Owns r t.source := by
  obtain ⟨k, hleft, hright⟩ := of_mem_matchBy hm
  obtain ⟨k', hfirst, hsecond⟩ := of_mem_matchBy (List.mem_filter.mp h).1
  refine ⟨fun t ht => ?_, fun t ht => ?_⟩
  · obtain ⟨a, ha, rfl⟩ := List.mem_map.mp (hfirst t ht).1
    obtain ⟨n, e, hn, he, -, hterm⟩ := mem_terms ha
    rw [hterm]
    exact .invariant (mem_namedSlices (hleft n hn).1).1 he
  · obtain ⟨b, hb, rfl⟩ := List.mem_map.mp (hsecond t ht).1
    obtain ⟨n, e, hn, he, -, hterm⟩ := mem_terms hb
    rw [hterm]
    exact .invariant (mem_namedSlices (hright n hn).1).1 he

theorem source_of_conditionTerm? {p : Point} {i : Nat} {t : Term}
    (h : p.conditionTerm? i = some t) : t.source = .condition i := by
  unfold Point.conditionTerm? at h
  split at h
  · cases h
  · cases h
    rfl

theorem mem_flatMap_parts {α β : Type} {f : β → Contrast} {g : Contrast → List α} {l : List β}
    {a : α} : a ∈ (l.map f).flatMap g ↔ ∃ b ∈ l, a ∈ g (f b) := by
  rw [List.flatMap_map, List.mem_flatMap]

theorem mem_exclusive_ofChildren {x : Term × Term} (h : x ∈ (ofChildren l r).exclusive) :
    (∃ m ∈ matchSlices l.2 r.2, x ∈ (ofSlices l.1 r.1 m).exclusive) ∨
      l.2.conditionTerm? l.1 = some x.1 ∧ r.2.conditionTerm? r.1 = some x.2 := by
  have hparts (h : x ∈ (ofParts ((matchSlices l.2 r.2).map (ofSlices l.1 r.1))).exclusive) :
      ∃ m ∈ matchSlices l.2 r.2, x ∈ (ofSlices l.1 r.1 m).exclusive := by
    exact mem_flatMap_parts.mp h
  unfold ofChildren at h
  dsimp only at h
  split at h
  · exact .inl (hparts h)
  · split at h
    · next c d hc hd =>
      rcases List.mem_cons.mp h with rfl | h
      · exact .inr ⟨hc, hd⟩
      · exact .inl (hparts h)
    · exact .inl (hparts h)

theorem rivals_of_mem_exclusive {x : Term × Term} (h : x ∈ (ofChildren l r).exclusive) :
    Rivals l r x.1.source x.2.source := by
  rcases mem_exclusive_ofChildren h with ⟨m, hm, hx⟩ | ⟨hc, hd⟩
  · exact rivals_of_mem_ofSlices hm hx
  · rw [source_of_conditionTerm? hc, source_of_conditionTerm? hd]
    exact .conditions

theorem mem_oneSided_ofChildren {y : Option Term × Option Term} :
    y ∈ (ofChildren l r).oneSided ↔
      ∃ m ∈ matchSlices l.2 r.2, y ∈ (ofSlices l.1 r.1 m).oneSided := by
  have hparts : (ofChildren l r).oneSided =
      (ofParts ((matchSlices l.2 r.2).map (ofSlices l.1 r.1))).oneSided := by
    unfold ofChildren
    dsimp only
    split
    · rfl
    · split <;> rfl
  rw [hparts]
  exact mem_flatMap_parts

theorem mem_shared_ofChildren {t : Term} :
    t ∈ (ofChildren l r).shared ↔ ∃ m ∈ matchSlices l.2 r.2, t ∈ (ofSlices l.1 r.1 m).shared := by
  have hparts : (ofChildren l r).shared =
      (ofParts ((matchSlices l.2 r.2).map (ofSlices l.1 r.1))).shared := by
    unfold ofChildren
    dsimp only
    split
    · rfl
    · split <;> rfl
  rw [hparts]
  exact mem_flatMap_parts

theorem owns_of_mem_oneSided {y : Option Term × Option Term}
    (h : y ∈ (ofChildren l r).oneSided) :
    (∀ t, y.1 = some t → Owns l t.source) ∧ ∀ t, y.2 = some t → Owns r t.source := by
  obtain ⟨m, hm, hy⟩ := mem_oneSided_ofChildren.mp h
  exact owns_of_mem_ofSlices hm hy

end Parts

/-! ## Halves -/

section Halves

/-- What a contrast tells about one of the two points. -/
structure Half where
  exclusive : List Term
  /-- The terms that the other point has not. -/
  differing : List Term

def left (c : Contrast) : Half where
  exclusive := c.exclusive.map Prod.fst
  differing := c.oneSided.filterMap Prod.fst

def right (c : Contrast) : Half where
  exclusive := c.exclusive.map Prod.snd
  differing := c.oneSided.filterMap Prod.snd

/-- The implication is found at some place among the exclusive terms of a half. -/
structure Half.Yields (s : Half) (imp : Implication) : Prop where
  place : ∃ i, s.exclusive[i]? = some imp.predicate ∧
    ∀ t ∈ s.exclusive.take (i + 1), t.source ≠ imp.consequent.source
  consequent : imp.consequent ∈ s.differing
  justified : imp.predicate.justified ∧ imp.consequent.justified
  iff : imp.iff ↔ ∃ t ∈ s.exclusive, t.source = imp.consequent.source

theorem implies?_eq_some_iff {exclusive : List Term} {i : Nat} {e d : Term} {imp : Implication}
    (he : exclusive[i]? = some e) :
    implies? exclusive i e d = some imp ↔ imp.predicate = e ∧ imp.consequent = d ∧
      (∀ t ∈ exclusive.take (i + 1), t.source ≠ d.source) ∧ (e.justified ∧ d.justified) ∧
      (imp.iff ↔ ∃ t ∈ exclusive, t.source = d.source) := by
  have hlater : (exclusive.findIdx? (·.source = d.source)).all (i < ·) ↔
      ∀ t ∈ exclusive.take (i + 1), t.source ≠ d.source := by
    rw [all_findIdx?_iff]
    simp only [decide_eq_false_iff_not, ne_eq]
  have hiff : (exclusive.findIdx? (·.source = d.source)).isSome ↔
      ∃ t ∈ exclusive, t.source = d.source := by
    rw [List.findIdx?_isSome, List.any_eq_true]
    simp only [decide_eq_true_eq]
  unfold implies?
  dsimp only
  constructor
  · intro h
    split at h
    · next hall =>
      simp only [Bool.and_eq_true] at hall
      cases h
      exact ⟨rfl, rfl, hlater.mp hall.1.1.1, ⟨hall.1.1.2, hall.1.2⟩, hiff⟩
    · cases h
  · rintro ⟨rfl, rfl, hbefore, ⟨hjustified, hjustified'⟩, hsame⟩
    obtain ⟨hi, hget⟩ := List.getElem?_eq_some_iff.mp he
    have hself : imp.predicate.source ≠ imp.consequent.source :=
      hbefore _ (List.mem_take_iff_getElem.mpr ⟨i, by omega, hget⟩)
    rw [if_pos (by simp [hlater.mpr hbefore, hjustified, hjustified', hself])]
    rw [Bool.eq_iff_iff.mpr (hiff.trans hsame.symm)]

/-- What is found at a place of a half for something one-sided is what the half yields. -/
theorem yields_iff {c : Contrast} {imp : Implication} {side : Term × Term → Term}
    {part : Option Term × Option Term → Option Term} :
    (∃ i, ∃ hi : i < c.exclusive.length, ∃ y ∈ c.oneSided,
      (part y).bind (implies? (c.exclusive.map side) i (side c.exclusive[i])) = some imp) ↔
    Half.Yields ⟨c.exclusive.map side, c.oneSided.filterMap part⟩ imp := by
  constructor
  · rintro ⟨i, hi, y, hy, himp⟩
    obtain ⟨d, hd, himp⟩ := Option.bind_eq_some_iff.mp himp
    have he : (c.exclusive.map side)[i]? = some (side c.exclusive[i]) := by simp [hi]
    obtain ⟨hpredicate, rfl, hbefore, hjustified, hiff⟩ := (implies?_eq_some_iff he).mp himp
    rw [← hpredicate] at he hjustified
    exact ⟨⟨i, he, hbefore⟩, List.mem_filterMap.mpr ⟨y, hy, hd⟩, hjustified, hiff⟩
  · rintro ⟨⟨i, he, hbefore⟩, hconsequent, hjustified, hiff⟩
    obtain ⟨y, hy, hd⟩ := List.mem_filterMap.mp hconsequent
    have hi : i < c.exclusive.length := by
      simpa using (List.getElem?_eq_some_iff.mp he).1
    have hpredicate : side c.exclusive[i] = imp.predicate := by simpa [hi] using he
    refine ⟨i, hi, y, hy, Option.bind_eq_some_iff.mpr ⟨imp.consequent, hd, ?_⟩⟩
    rw [hpredicate]
    exact (implies?_eq_some_iff he).mpr ⟨rfl, rfl, hbefore, hjustified, hiff⟩

/-- The implications are those that the halves yield, but of several that relate the same terms in
the same way only the first. -/
theorem implications_eq (c : Contrast) : ∃ all : List Implication,
    c.implications = all.eraseDupsBy Implication.isSameAs ∧
      ∀ imp, imp ∈ all ↔ c.left.Yields imp ∨ c.right.Yields imp := by
  refine ⟨_, rfl, fun imp => ?_⟩
  rw [left, right, ← yields_iff, ← yields_iff]
  simp only [List.mem_flatten, List.mem_mapIdx]
  constructor
  · rintro ⟨_, ⟨i, hi, rfl⟩, himp⟩
    obtain ⟨y, hy, himp⟩ := List.mem_flatMap.mp himp
    rcases List.mem_append.mp himp with himp | himp
    · exact .inl ⟨i, hi, y, hy, Option.mem_toList.mp himp⟩
    · exact .inr ⟨i, hi, y, hy, Option.mem_toList.mp himp⟩
  · rintro (⟨i, hi, y, hy, himp⟩ | ⟨i, hi, y, hy, himp⟩)
    · exact ⟨_, ⟨i, hi, rfl⟩, List.mem_flatMap.mpr
        ⟨y, hy, List.mem_append_left _ (Option.mem_toList.mpr himp)⟩⟩
    · exact ⟨_, ⟨i, hi, rfl⟩, List.mem_flatMap.mpr
        ⟨y, hy, List.mem_append_right _ (Option.mem_toList.mpr himp)⟩⟩

theorem yields_of_mem_implications {c : Contrast} {imp : Implication} (h : imp ∈ c.implications) :
    c.left.Yields imp ∨ c.right.Yields imp := by
  obtain ⟨all, heq, hall⟩ := c.implications_eq
  rw [heq] at h
  exact (hall imp).mp (mem_of_mem_eraseDupsBy h)

theorem exists_mem_implications {c : Contrast} {imp : Implication}
    (h : c.left.Yields imp ∨ c.right.Yields imp) :
    ∃ j ∈ c.implications, imp.isSameAs j := by
  obtain ⟨all, heq, hall⟩ := c.implications_eq
  rw [heq]
  exact exists_mem_eraseDupsBy (fun i => by simp [Implication.isSameAs]) ((hall imp).mpr h)

theorem exists_mem_side {pairs : List (Term × Term)} (side : Term × Term → Term)
    {source : TermSource} : (∃ t ∈ pairs.map side, t.source = source) ↔
      ∃ z ∈ pairs, (side z).source = source := by
  constructor
  · rintro ⟨t, ht, hsource⟩
    obtain ⟨z, hz, rfl⟩ := List.mem_map.mp ht
    exact ⟨z, hz, hsource⟩
  · rintro ⟨z, hz, hsource⟩
    exact ⟨side z, List.mem_map_of_mem hz, hsource⟩

/-- An implication leads from one side of an exclusive pair to something on the same side. -/
theorem of_mem_implications {c : Contrast} {imp : Implication} (h : imp ∈ c.implications) :
    ∃ x ∈ c.exclusive, ∃ y ∈ c.oneSided,
      (imp.predicate = x.1 ∧ y.1 = some imp.consequent ∧
        (imp.iff ↔ ∃ z ∈ c.exclusive, z.1.source = imp.consequent.source)) ∨
      imp.predicate = x.2 ∧ y.2 = some imp.consequent ∧
        (imp.iff ↔ ∃ z ∈ c.exclusive, z.2.source = imp.consequent.source) := by
  rcases yields_of_mem_implications h with ⟨⟨i, hi, -⟩, hconsequent, -, hiff⟩ |
    ⟨⟨i, hi, -⟩, hconsequent, -, hiff⟩
  · obtain ⟨x, hx, hpredicate⟩ := List.mem_map.mp (List.mem_of_getElem? hi)
    obtain ⟨y, hy, hside⟩ := List.mem_filterMap.mp hconsequent
    exact ⟨x, hx, y, hy, .inl ⟨hpredicate.symm, hside, hiff.trans (exists_mem_side _)⟩⟩
  · obtain ⟨x, hx, hpredicate⟩ := List.mem_map.mp (List.mem_of_getElem? hi)
    obtain ⟨y, hy, hside⟩ := List.mem_filterMap.mp hconsequent
    exact ⟨x, hx, y, hy, .inr ⟨hpredicate.symm, hside, hiff.trans (exists_mem_side _)⟩⟩

end Halves

/-! ## Terms -/

section Terms

/-- A term of a point: of one of its invariants or of its condition, as they are. -/
inductive IsTermOf (p : Nat × Point) : Term → Prop
  | invariant {n : NamedSlice} {e : SliceEntry} (hn : n ∈ p.2.namedSlices)
      (he : e ∈ n.slice.entries) : IsTermOf p (n.termOf p.1 e)
  | condition {t : Term} (h : p.2.conditionTerm? p.1 = some t) : IsTermOf p t

variable {l r : Nat × Point} {m : Option NamedSlice × Option NamedSlice}

theorem IsTermOf.point {p : Nat × Point} {t : Term} (h : IsTermOf p t) : t.source.point = p.1 := by
  cases h with
  | invariant hn he => rfl
  | condition h => rw [source_of_conditionTerm? h, TermSource.point]

theorem isTermOf_terms (hm : m ∈ matchSlices l.2 r.2) :
    (∀ t ∈ m.1.elim [] (·.terms l.1), IsTermOf l t.term) ∧
      ∀ t ∈ m.2.elim [] (·.terms r.1), IsTermOf r t.term := by
  obtain ⟨k, hleft, hright⟩ := of_mem_matchBy hm
  refine ⟨fun t ht => ?_, fun t ht => ?_⟩
  · obtain ⟨n, e, hn, he, -, hterm⟩ := mem_terms ht
    rw [hterm]
    exact .invariant (hleft n hn).1 he
  · obtain ⟨n, e, hn, he, -, hterm⟩ := mem_terms ht
    rw [hterm]
    exact .invariant (hright n hn).1 he

theorem isTermOf_of_mem_exclusive {x : Term × Term} (h : x ∈ (ofChildren l r).exclusive) :
    IsTermOf l x.1 ∧ IsTermOf r x.2 := by
  rcases mem_exclusive_ofChildren h with ⟨m, hm, hx⟩ | ⟨hc, hd⟩
  · obtain ⟨hleft, hright⟩ := isTermOf_terms hm
    obtain ⟨a, ha, b, hb, -, rfl⟩ := mem_exclusivePairs.mp hx
    exact ⟨hleft a ha, hright b hb⟩
  · exact ⟨.condition hc, .condition hd⟩

theorem isTermOf_of_mem_matched (hm : m ∈ matchSlices l.2 r.2) {y : Option Term × Option Term}
    (hy : y ∈ matchBy Term.formula Formula.compare
      ((m.1.elim [] (·.terms l.1)).map (·.term)) ((m.2.elim [] (·.terms r.1)).map (·.term))) :
    (∀ t, y.1 = some t → IsTermOf l t) ∧ ∀ t, y.2 = some t → IsTermOf r t := by
  obtain ⟨hleft, hright⟩ := isTermOf_terms hm
  obtain ⟨k, hfirst, hsecond⟩ := of_mem_matchBy hy
  refine ⟨fun t ht => ?_, fun t ht => ?_⟩
  · obtain ⟨a, ha, rfl⟩ := List.mem_map.mp (hfirst t ht).1
    exact hleft a ha
  · obtain ⟨b, hb, rfl⟩ := List.mem_map.mp (hsecond t ht).1
    exact hright b hb

theorem isTermOf_of_mem_oneSided {y : Option Term × Option Term}
    (h : y ∈ (ofChildren l r).oneSided) :
    (∀ t, y.1 = some t → IsTermOf l t) ∧ ∀ t, y.2 = some t → IsTermOf r t := by
  obtain ⟨m, hm, hy⟩ := mem_oneSided_ofChildren.mp h
  exact isTermOf_of_mem_matched hm (List.mem_filter.mp hy).1

/-- What both children have is a term of the first. -/
theorem isTermOf_of_mem_shared {t : Term} (h : t ∈ (ofChildren l r).shared) : IsTermOf l t := by
  obtain ⟨m, hm, ht⟩ := mem_shared_ofChildren.mp h
  obtain ⟨y, hy, hshared⟩ := List.mem_filterMap.mp ht
  have hleft := (isTermOf_of_mem_matched hm hy).1
  unfold shared? at hshared
  split at hshared
  · split at hshared
    · cases hshared
      exact hleft _ rfl
    · cases hshared
  · cases hshared

theorem isTermOf_of_mem_implications {imp : Implication}
    (h : imp ∈ (ofChildren l r).implications) :
    IsTermOf l imp.predicate ∧ IsTermOf l imp.consequent ∨
      IsTermOf r imp.predicate ∧ IsTermOf r imp.consequent := by
  obtain ⟨x, hx, y, hy, ⟨hpredicate, hside, -⟩ | ⟨hpredicate, hside, -⟩⟩ :=
    of_mem_implications h
  · rw [hpredicate]
    exact .inl ⟨(isTermOf_of_mem_exclusive hx).1, (isTermOf_of_mem_oneSided hy).1 _ hside⟩
  · rw [hpredicate]
    exact .inr ⟨(isTermOf_of_mem_exclusive hx).2, (isTermOf_of_mem_oneSided hy).2 _ hside⟩

/-- The implications from two different points relate different terms: which side an implication
comes from shows in its predicate, and whether it goes both ways depends on its consequent. -/
theorem pairwise_implications (hne : l.1 ≠ r.1) :
    (ofChildren l r).implications.Pairwise fun i j => ¬i.RelatesAs j := by
  have hiff {i j : Implication} (hi : i ∈ (ofChildren l r).implications)
      (hj : j ∈ (ofChildren l r).implications) (h : i.RelatesAs j) : i.iff = j.iff := by
    obtain ⟨hsame, hsame'⟩ := h
    have hpoint : i.predicate.source.point = j.predicate.source.point := congrArg _ hsame
    obtain ⟨x, hx, _, _, hi⟩ := of_mem_implications hi
    obtain ⟨y, hy, _, _, hj⟩ := of_mem_implications hj
    obtain ⟨hleft, hright⟩ := isTermOf_of_mem_exclusive hx
    obtain ⟨hleft', hright'⟩ := isTermOf_of_mem_exclusive hy
    rcases hi with ⟨hi, -, hiff⟩ | ⟨hi, -, hiff⟩ <;> rcases hj with ⟨hj, -, hiff'⟩ | ⟨hj, -, hiff'⟩
    · rw [Bool.eq_iff_iff, hiff, hiff', hsame']
    · rw [hi, hj, hleft.point, hright'.point] at hpoint
      exact absurd hpoint hne
    · rw [hi, hj, hright.point, hleft'.point] at hpoint
      exact absurd hpoint.symm hne
    · rw [Bool.eq_iff_iff, hiff, hiff', hsame']
  refine List.Pairwise.imp_of_mem (fun {i j} hi hj hdiffer hrelates => ?_)
    (pairwise_eraseDupsBy (r := Implication.isSameAs) _)
  have hsame : j.isSameAs i := Implication.isSameAs_iff.mpr
    ⟨⟨hrelates.1.symm, hrelates.2.symm⟩, (hiff hi hj hrelates).symm⟩
  exact absurd hsame (by simp [hdiffer])

end Terms

end Contrast

end LikelyInvariants
