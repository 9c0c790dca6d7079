import LikelyInvariants.Proofs.Implication.Currency
import LikelyInvariants.Proofs.Keys
import Mathlib.Data.List.Basic

/-!
# What is built from two children

The halves of two different children have no term in common, and a term is told by its source. So
the implications of the children are exactly what the halves yield
(`Contrast.mem_implications_iff`). Where no two invariants of a child state the same, the terms that
only one child has can be told from their formulas, and this says what is built in full
(`Context.content_ofChildren`).
-/

namespace LikelyInvariants

open Contrast

/-! ## Matching by different keys -/

section Matching

variable {α κ : Type} [DecidableEq κ] {key : α → κ} {cmp : κ → κ → Ordering} {left right : List α}

theorem mem_matchBy_swap {x : Option α × Option α} :
    x.swap ∈ matchBy key cmp right left ↔ x ∈ matchBy key cmp left right := by
  simp only [mem_matchBy, List.mem_append, Prod.ext_iff, Prod.fst_swap, Prod.snd_swap]
  constructor
  · rintro ⟨a, ha, hsecond, hfirst⟩
    exact ⟨a, ha.symm, hfirst, hsecond⟩
  · rintro ⟨a, ha, hfirst, hsecond⟩
    exact ⟨a, ha.symm, hsecond, hfirst⟩

/-- Where no key occurs twice, an item is found by its key. -/
theorem find?_reverse_eq_some_iff {l : List α} (h : (l.map key).Nodup) {k : κ} {a : α} :
    l.reverse.find? (key · = k) = some a ↔ a ∈ l ∧ key a = k := by
  constructor
  · intro hfound
    exact ⟨List.mem_reverse.mp (List.mem_of_find?_eq_some hfound),
      by simpa using List.find?_some hfound⟩
  · rintro ⟨ha, hkey⟩
    cases hfound : l.reverse.find? (key · = k) with
    | none =>
      have hnone := List.find?_eq_none.mp hfound a (List.mem_reverse.mpr ha)
      simp [hkey] at hnone
    | some b =>
      have hb := List.mem_reverse.mp (List.mem_of_find?_eq_some hfound)
      have hkey' : key b = k := by simpa using List.find?_some hfound
      rw [List.inj_on_of_nodup_map h hb ha (hkey'.trans hkey.symm)]

/-- Where no key occurs twice on the left, each item there is matched once. -/
theorem mem_matchBy_some (h : (left.map key).Nodup) {a : α} {o : Option α} :
    (some a, o) ∈ matchBy key cmp left right ↔
      a ∈ left ∧ o = right.reverse.find? (key · = key a) := by
  rw [mem_matchBy]
  constructor
  · rintro ⟨c, -, heq⟩
    obtain ⟨hfirst, hsecond⟩ := Prod.mk.inj heq
    obtain ⟨ha, hkey⟩ := (find?_reverse_eq_some_iff h).mp hfirst.symm
    rw [hkey]
    exact ⟨ha, hsecond⟩
  · rintro ⟨ha, rfl⟩
    refine ⟨a, List.mem_append_left _ ha, ?_⟩
    rw [(find?_reverse_eq_some_iff h).mpr ⟨ha, rfl⟩]

end Matching

namespace Contrast

/-! ## Terms of numbered points -/

section Numbered

variable {l r p : Nat × Point} {imp : Implication}

/-- Where invariants are numbered, the source of a term tells the term. -/
theorem IsTermOf.eq_of_source (h : p.2.Numbered) {t u : Term} (ht : IsTermOf p t)
    (hu : IsTermOf p u) (hsource : t.source = u.source) : t = u := by
  cases ht with
  | @invariant n e hn he =>
    cases hu with
    | @invariant n' e' hn' he' =>
      obtain ⟨hs, hnames⟩ := mem_namedSlices hn
      obtain ⟨hs', hnames'⟩ := mem_namedSlices hn'
      have hid : e.id = e'.id := (TermSource.invariant.inj hsource).2
      have hfound := Point.invariant?_of_mem h hs he
      rw [hid, Point.invariant?_of_mem h hs' he'] at hfound
      obtain ⟨hkey, hinv⟩ := Prod.mk.inj (Option.some.inj hfound)
      rw [NamedSlice.termOf, NamedSlice.termOf, hnames, hnames', hkey, hinv, hid]
    | condition hu =>
      rw [source_of_conditionTerm? hu] at hsource
      cases hsource
  | condition ht =>
    cases hu with
    | invariant hn he =>
      rw [source_of_conditionTerm? ht] at hsource
      cases hsource
    | condition hu => exact Option.some.inj (ht.symm.trans hu)

/-- A half has terms of one point only. -/
structure Half.IsAbout (s : Half) (p : Nat × Point) : Prop where
  numbered : p.2.Numbered
  exclusive : ∀ t ∈ s.exclusive, IsTermOf p t
  differing : ∀ t ∈ s.differing, IsTermOf p t

namespace Half

variable {s : Half}

theorem isAbout_left (h : l.2.Numbered) : (ofChildren l r).left.IsAbout l := by
  refine ⟨h, fun t ht => ?_, fun t ht => ?_⟩
  · obtain ⟨x, hx, rfl⟩ := List.mem_map.mp ht
    exact (isTermOf_of_mem_exclusive hx).1
  · obtain ⟨y, hy, ht⟩ := List.mem_filterMap.mp ht
    exact (isTermOf_of_mem_oneSided hy).1 t ht

theorem isAbout_right (h : r.2.Numbered) : (ofChildren l r).right.IsAbout r := by
  refine ⟨h, fun t ht => ?_, fun t ht => ?_⟩
  · obtain ⟨x, hx, rfl⟩ := List.mem_map.mp ht
    exact (isTermOf_of_mem_exclusive hx).2
  · obtain ⟨y, hy, ht⟩ := List.mem_filterMap.mp ht
    exact (isTermOf_of_mem_oneSided hy).2 t ht

theorem Yields.predicate_mem (h : s.Yields imp) : imp.predicate ∈ s.exclusive := by
  obtain ⟨i, hi, -⟩ := h.place
  exact List.mem_of_getElem? hi

theorem IsAbout.point (h : s.IsAbout p) (hyields : s.Yields imp) {a : TermSource}
    (ha : imp.Mentions a) : a.point = p.1 := by
  rcases ha with rfl | rfl
  · exact (h.exclusive _ hyields.predicate_mem).point
  · exact (h.differing _ hyields.consequent).point

/-- No term implies itself. -/
theorem Yields.source_ne (h : s.Yields imp) : imp.predicate.source ≠ imp.consequent.source := by
  obtain ⟨i, hi, hlater⟩ := h.place
  obtain ⟨hlt, hget⟩ := List.getElem?_eq_some_iff.mp hi
  exact hlater _ (List.mem_take_iff_getElem.mpr ⟨i, by omega, hget⟩)

/-- What is stated in one direction is not stated in the other: the term that comes first would have
to come after the other one. -/
theorem Yields.not_reversed {j : Implication} (h : s.Yields imp) (hj : s.Yields j)
    (hpredicate : j.predicate.source = imp.consequent.source) :
    j.consequent.source ≠ imp.predicate.source := by
  intro hconsequent
  obtain ⟨a, ha, hlater⟩ := h.place
  obtain ⟨b, hb, hlater'⟩ := hj.place
  obtain ⟨hlt, hget⟩ := List.getElem?_eq_some_iff.mp ha
  obtain ⟨hlt', hget'⟩ := List.getElem?_eq_some_iff.mp hb
  rcases Nat.lt_or_ge a b with hab | hab
  · exact hlater' _ (List.mem_take_iff_getElem.mpr ⟨a, by omega, hget⟩) hconsequent.symm
  · exact hlater _ (List.mem_take_iff_getElem.mpr ⟨b, by omega, hget'⟩) hpredicate

/-- Implications of one half that relate the same terms are the same. -/
theorem IsAbout.eq_of_relatesAs (h : s.IsAbout p) {i j : Implication} (hi : s.Yields i)
    (hj : s.Yields j) (hsame : i.RelatesAs j) : i = j := by
  have hpredicate := (h.exclusive _ hi.predicate_mem).eq_of_source h.numbered
    (h.exclusive _ hj.predicate_mem) hsame.1
  have hconsequent := (h.differing _ hi.consequent).eq_of_source h.numbered
    (h.differing _ hj.consequent) hsame.2
  have hiff : i.iff = j.iff := by
    rw [Bool.eq_iff_iff, hi.iff, hj.iff, hconsequent]
  cases i
  cases j
  simp_all

end Half

/-- Implications that mention a common term come from the same half. -/
theorem exists_common_half (hne : l.1 ≠ r.1) (hl : l.2.Numbered) (hr : r.2.Numbered)
    {i j : Implication} (hi : (ofChildren l r).left.Yields i ∨ (ofChildren l r).right.Yields i)
    (hj : (ofChildren l r).left.Yields j ∨ (ofChildren l r).right.Yields j) {a : TermSource}
    (ha : i.Mentions a) (ha' : j.Mentions a) :
    ∃ (s : Half) (p : Nat × Point), s.IsAbout p ∧ s.Yields i ∧ s.Yields j := by
  have hleft : (ofChildren l r).left.IsAbout l := Half.isAbout_left hl
  have hright : (ofChildren l r).right.IsAbout r := Half.isAbout_right hr
  rcases hi with hi | hi <;> rcases hj with hj | hj
  · exact ⟨_, l, hleft, hi, hj⟩
  · exact absurd ((hleft.point hi ha).symm.trans (hright.point hj ha')) hne
  · exact absurd ((hleft.point hj ha').symm.trans (hright.point hi ha)) hne
  · exact ⟨_, r, hright, hi, hj⟩

/-- The implications of two different points are those that the halves yield. -/
theorem mem_implications_iff (hne : l.1 ≠ r.1) (hl : l.2.Numbered) (hr : r.2.Numbered) :
    imp ∈ (ofChildren l r).implications ↔
      (ofChildren l r).left.Yields imp ∨ (ofChildren l r).right.Yields imp := by
  constructor
  · exact yields_of_mem_implications
  · intro h
    obtain ⟨j, hj, hsame⟩ := exists_mem_implications h
    obtain ⟨hrelates, -⟩ := Implication.isSameAs_iff.mp hsame
    obtain ⟨s, p, habout, himp, hj'⟩ := exists_common_half hne hl hr h
      (yields_of_mem_implications hj) (.inl rfl) (.inl hrelates.1)
    rwa [habout.eq_of_relatesAs himp hj' hrelates]

end Numbered

end Contrast

/-! ## Points that say nothing twice -/

/-- No two variables of a point have the same name, and no two invariants of a slice the same
formula. -/
structure Point.Distinct (p : Point) : Prop where
  names : (p.catalog.vars.map (·.name)).Nodup
  formulas : ∀ s ∈ p.slices, (s.entries.map fun e => e.inv.key).Nodup

/-- What a point says can be told from the names of the variables and the formula. -/
structure Point.Tidy (p : Point) : Prop extends p.Keyed, p.Distinct

namespace Contrast

section Tidy

variable {l r p : Nat × Point} {n : NamedSlice} {t : Term}

/-- Over different variables there are different names. -/
theorem nodup_names (h : p.2.Tidy) : (p.2.namedSlices.map NamedSlice.names).Nodup := by
  have hkeys : (p.2.slices.map fun s => p.2.catalog.names s.key).Nodup := by
    rw [← Function.comp_def, ← List.map_map]
    apply h.nodup.map_on
    intro k hk k' hk' hnames
    obtain ⟨s, hs, rfl⟩ := List.mem_map.mp hk
    obtain ⟨s', hs', rfl⟩ := List.mem_map.mp hk'
    exact Catalog.key_eq_of_names_eq h.names (h.lt s hs) (h.lt s' hs') hnames
  simpa [Point.namedSlices, Function.comp_def] using hkeys

theorem nodup_formulas (h : p.2.Tidy) (hn : n ∈ p.2.namedSlices) :
    (((n.terms p.1).map (·.term)).map Term.formula).Nodup := by
  have hinj : Function.Injective fun key => ({ names := n.names, key := some key } : Formula) := by
    intro key key' heq
    exact Option.some.inj (Formula.mk.inj heq).2
  have hformulas := (h.formulas _ (mem_namedSlices hn).1).map hinj
  simpa [NamedSlice.terms, NamedSlice.termOf, Function.comp_def] using hformulas

theorem mem_terms_iff {i : Nat} :
    t ∈ (n.terms i).map (·.term) ↔ ∃ e ∈ n.slice.entries, t = n.termOf i e := by
  simp [NamedSlice.terms, eq_comm]

theorem formula_of_conditionTerm? {p : Point} {i : Nat} (h : p.conditionTerm? i = some t) :
    t.formula = ⟨[], none⟩ := by
  unfold Point.conditionTerm? at h
  split at h
  · cases h
  · cases h
    rfl

/-- Slices are matched with those of the same names. -/
theorem mem_matchSlices (hl : l.2.Tidy) (hr : r.2.Tidy) {o : Option NamedSlice} :
    (some n, o) ∈ matchSlices l.2 r.2 ↔ n ∈ l.2.namedSlices ∧
      ∀ n', o = some n' ↔ n' ∈ r.2.namedSlices ∧ n'.names = n.names := by
  have hfound (n' : NamedSlice) : r.2.namedSlices.reverse.find? (·.names = n.names) = some n' ↔
      n' ∈ r.2.namedSlices ∧ n'.names = n.names := find?_reverse_eq_some_iff (nodup_names hr)
  rw [matchSlices, mem_matchBy_some (nodup_names hl)]
  apply and_congr_right
  intro _
  constructor
  · rintro rfl
    exact hfound
  · intro ho
    ext n'
    exact (ho n').trans (hfound n').symm

/-- In matched slices, the terms of the first that no term of the second has the formula of. -/
theorem mem_oneSided_ofSlices (hl : l.2.Tidy) (hn : n ∈ l.2.namedSlices) {o : Option NamedSlice} :
    (some t, none) ∈ (ofSlices l.1 r.1 (some n, o)).oneSided ↔
      (∃ e ∈ n.slice.entries, t = n.termOf l.1 e) ∧
        ∀ u ∈ o.elim [] (·.terms r.1), u.term.formula ≠ t.formula := by
  have hmatched : (some t, none) ∈ matchBy Term.formula Formula.compare
      ((n.terms l.1).map (·.term)) ((o.elim [] (·.terms r.1)).map (·.term)) ↔ _ :=
    mem_matchBy_some (nodup_formulas hl hn)
  rw [mem_terms_iff] at hmatched
  refine List.mem_filter.trans ((and_iff_left rfl).trans (hmatched.trans (and_congr_right ?_)))
  intro _
  rw [eq_comm, List.find?_eq_none]
  constructor
  · intro hnone u hu
    simpa using hnone u.term (List.mem_reverse.mpr (List.mem_map_of_mem hu))
  · intro halone u hu
    obtain ⟨v, hv, rfl⟩ := List.mem_map.mp (List.mem_reverse.mp hu)
    simpa using halone v hv

theorem mem_differing_left_iff (hl : l.2.Tidy) : t ∈ (ofChildren l r).left.differing ↔
    ∃ n ∈ l.2.namedSlices, ∃ o, (some n, o) ∈ matchSlices l.2 r.2 ∧
      (some t, none) ∈ (ofSlices l.1 r.1 (some n, o)).oneSided := by
  rw [left, List.mem_filterMap]
  constructor
  · rintro ⟨⟨a, b⟩, hy, hfirst⟩
    obtain rfl : a = some t := hfirst
    obtain ⟨⟨o, o'⟩, hm, hy⟩ := mem_oneSided_ofChildren.mp hy
    obtain ⟨hmatched, honeSided⟩ := List.mem_filter.mp hy
    obtain rfl : b = none := by
      cases b with
      | none => rfl
      | some b => cases honeSided
    obtain ⟨k, hterm, -⟩ := of_mem_matchBy hmatched
    obtain ⟨u, hu, -⟩ := List.mem_map.mp (hterm t rfl).1
    obtain ⟨n, -, rfl, -⟩ := mem_terms hu
    exact ⟨n, ((mem_matchBy_some (nodup_names hl)).mp hm).1, o', hm, hy⟩
  · rintro ⟨n, -, o, hm, hy⟩
    exact ⟨_, mem_oneSided_ofChildren.mpr ⟨_, hm, hy⟩, rfl⟩

/-- A term of a point whose formula no term of the other point has. -/
structure IsOwn (p other : Nat × Point) (t : Term) : Prop where
  term : IsTermOf p t
  alone : ∀ u, IsTermOf other u → u.formula ≠ t.formula

/-- The terms that only the first child has. -/
theorem mem_differing_left (hl : l.2.Tidy) (hr : r.2.Tidy)
    (hcondition : ∃ c, r.2.conditionTerm? r.1 = some c) :
    t ∈ (ofChildren l r).left.differing ↔ IsOwn l r t := by
  rw [mem_differing_left_iff hl]
  constructor
  · rintro ⟨n, hn, o, hm, hy⟩
    obtain ⟨⟨e, he, rfl⟩, halone⟩ := (mem_oneSided_ofSlices hl hn).mp hy
    refine ⟨.invariant hn he, ?_⟩
    intro u hu hformula
    cases hu with
    | @invariant n' f hn' hf =>
      have hnames : n'.names = n.names := (Formula.mk.inj hformula).1
      obtain rfl := (((mem_matchSlices hl hr).mp hm).2 n').mpr ⟨hn', hnames⟩
      exact halone _ (List.mem_map_of_mem hf) hformula
    | condition hc =>
      rw [formula_of_conditionTerm? hc] at hformula
      cases congrArg Formula.key hformula
  · rintro ⟨hterm, halone⟩
    cases hterm with
    | @invariant n e hn he =>
      have hm : (some n, r.2.namedSlices.reverse.find? (·.names = n.names)) ∈
          matchSlices l.2 r.2 := (mem_matchBy_some (nodup_names hl)).mpr ⟨hn, rfl⟩
      refine ⟨n, hn, _, hm, (mem_oneSided_ofSlices hl hn).mpr ⟨⟨e, he, rfl⟩, ?_⟩⟩
      intro u hu
      exact halone _ ((isTermOf_terms hm).2 u hu)
    | condition hc =>
      -- both children have a condition, and conditions have one formula
      obtain ⟨c, hc'⟩ := hcondition
      apply absurd _ (halone c (.condition hc'))
      rw [formula_of_conditionTerm? hc, formula_of_conditionTerm? hc']

theorem isOneSided_swap (y : Option Term × Option Term) : isOneSided y.swap = isOneSided y := by
  obtain ⟨a, b⟩ := y
  cases a <;> cases b <;> rfl

/-- What is one-sided is so in either order of the children. -/
theorem mem_oneSided_swap {y : Option Term × Option Term} :
    y.swap ∈ (ofChildren r l).oneSided ↔ y ∈ (ofChildren l r).oneSided := by
  have hparts (m : Option NamedSlice × Option NamedSlice) :
      y.swap ∈ (ofSlices r.1 l.1 m.swap).oneSided ↔ y ∈ (ofSlices l.1 r.1 m).oneSided := by
    refine List.mem_filter.trans (Iff.trans ?_ List.mem_filter.symm)
    rw [isOneSided_swap]
    exact and_congr_left fun _ => mem_matchBy_swap
  rw [mem_oneSided_ofChildren, mem_oneSided_ofChildren]
  constructor
  · rintro ⟨m, hm, hy⟩
    exact ⟨m.swap, mem_matchBy_swap.mp hm, (hparts m.swap).mp hy⟩
  · rintro ⟨m, hm, hy⟩
    exact ⟨m.swap, mem_matchBy_swap.mpr hm, (hparts m).mpr hy⟩

theorem mem_differing_swap :
    t ∈ (ofChildren l r).right.differing ↔ t ∈ (ofChildren r l).left.differing := by
  rw [left, right, List.mem_filterMap, List.mem_filterMap]
  constructor
  · rintro ⟨y, hy, ht⟩
    exact ⟨y.swap, mem_oneSided_swap.mpr hy, ht⟩
  · rintro ⟨y, hy, ht⟩
    exact ⟨y.swap, mem_oneSided_swap.mpr hy, ht⟩

/-! ## The exclusive terms -/

/-- A pair of terms of matched slices that exclude each other. -/
inductive Clash (l r : Nat × Point) : Term × Term → Prop
  | of_excludes {n n' : NamedSlice} {e f : SliceEntry} (hn : n ∈ l.2.namedSlices)
      (he : e ∈ n.slice.entries) (hn' : n' ∈ r.2.namedSlices) (hf : f ∈ n'.slice.entries)
      (hnames : n.names = n'.names) (h : e.inv.excludes f.inv) :
      Clash l r (n.termOf l.1 e, n'.termOf r.1 f)

theorem mem_exclusive_ofParts (hl : l.2.Tidy) (hr : r.2.Tidy) {x : Term × Term} :
    x ∈ (ofParts ((matchSlices l.2 r.2).map (ofSlices l.1 r.1))).exclusive ↔ Clash l r x := by
  refine mem_flatMap_parts.trans ⟨?_, ?_⟩
  · rintro ⟨⟨o, o'⟩, hm, hx⟩
    obtain ⟨k, hleft, hright⟩ := of_mem_matchBy hm
    obtain ⟨a, ha, b, hb, hexcludes, rfl⟩ := mem_exclusivePairs.mp hx
    obtain ⟨n, e, rfl, he, hinv, hterm⟩ := mem_terms ha
    obtain ⟨n', f, rfl, hf, hinv', hterm'⟩ := mem_terms hb
    rw [hterm, hterm']
    rw [hinv, hinv'] at hexcludes
    exact .of_excludes (hleft n rfl).1 he (hright n' rfl).1 hf
      ((hleft n rfl).2.trans (hright n' rfl).2.symm) hexcludes
  · rintro ⟨hn, he, hn', hf, hnames, hexcludes⟩
    refine ⟨_, (mem_matchBy_some (nodup_names hl)).mpr ⟨hn, rfl⟩, ?_⟩
    rw [(find?_reverse_eq_some_iff (nodup_names hr)).mpr ⟨hn', hnames.symm⟩]
    exact mem_exclusivePairs.mpr
      ⟨_, List.mem_map_of_mem he, _, List.mem_map_of_mem hf, hexcludes, rfl⟩

/-- Where nothing excludes anything, there are no exclusive terms. -/
theorem exclusive_eq_nil (hl : l.2.Tidy) (hr : r.2.Tidy) (hnone : ∀ x, ¬Clash l r x) :
    (ofChildren l r).exclusive = [] := by
  have hparts : (ofParts ((matchSlices l.2 r.2).map (ofSlices l.1 r.1))).exclusive = [] :=
    List.eq_nil_iff_forall_not_mem.mpr fun x hx => hnone x ((mem_exclusive_ofParts hl hr).mp hx)
  unfold ofChildren
  dsimp only
  rw [if_pos (by simp [hparts]), hparts]

/-- The conditions of two points, if both have one that can be written. -/
def conditions (l r : Nat × Point) : List (Term × Term) :=
  match l.2.conditionTerm? l.1, r.2.conditionTerm? r.1 with
  | some c, some d => [(c, d)]
  | _, _ => []

/-- Otherwise they begin with the conditions, if there are any. -/
theorem exclusive_eq_append (hl : l.2.Tidy) (hr : r.2.Tidy) (hsome : ∃ x, Clash l r x) :
    ∃ pairs, (ofChildren l r).exclusive = conditions l r ++ pairs ∧
      ∀ x, x ∈ pairs ↔ Clash l r x := by
  refine ⟨_, ?_, fun x => mem_exclusive_ofParts hl hr⟩
  obtain ⟨x, hx⟩ := hsome
  have hmem := (mem_exclusive_ofParts hl hr).mpr hx
  unfold ofChildren conditions
  dsimp only
  rw [if_neg fun hempty => ?_]
  · cases l.2.conditionTerm? l.1 <;> cases r.2.conditionTerm? r.1 <;> rfl
  · rw [List.isEmpty_iff.mp hempty] at hmem
    cases hmem

end Tidy

/-! ## What follows -/

section Following

variable {l r p other : Nat × Point} {imp : Implication}

/-- A term that the other point has not follows from an exclusive term. It is equivalent to it if it
is exclusive too, and then the first place of the predicate is before that of the consequent. -/
structure Follows (p other : Nat × Point) (exclusive : List Term) (imp : Implication) : Prop where
  predicate : imp.predicate ∈ exclusive
  consequent : IsOwn p other imp.consequent
  justified : imp.predicate.justified ∧ imp.consequent.justified
  iff : imp.iff ↔ imp.consequent ∈ exclusive
  before : imp.iff → exclusive.idxOf imp.predicate < exclusive.idxOf imp.consequent

/-- The first place of a term is before that of another if it has some place up to which the other
does not occur. -/
theorem exists_place_iff {α : Type} [DecidableEq α] {l : List α} {a b : α} :
    (∃ i, l[i]? = some a ∧ b ∉ l.take (i + 1)) ↔
      a ∈ l ∧ (b ∈ l → l.idxOf a < l.idxOf b) := by
  constructor
  · rintro ⟨i, hi, hb⟩
    refine ⟨List.mem_of_getElem? hi, ?_⟩
    intro hmem
    have ha : a ∈ l.take (i + 1) := by
      obtain ⟨hlt, rfl⟩ := List.getElem?_eq_some_iff.mp hi
      exact List.mem_take_iff_getElem.mpr ⟨i, by omega, rfl⟩
    rw [List.mem_take_iff_idxOf_lt (List.mem_of_getElem? hi)] at ha
    rw [List.mem_take_iff_idxOf_lt hmem] at hb
    omega
  · rintro ⟨ha, hbefore⟩
    refine ⟨l.idxOf a, List.getElem?_idxOf ha, ?_⟩
    intro hb
    have hmem : b ∈ l := List.mem_of_mem_take hb
    rw [List.mem_take_iff_idxOf_lt hmem] at hb
    have hlt := hbefore hmem
    omega

/-- Among terms of one point, sources tell what terms tell. -/
theorem Half.IsAbout.yields_iff {s : Half} (h : s.IsAbout p)
    (hown : ∀ t, t ∈ s.differing ↔ IsOwn p other t) :
    s.Yields imp ↔ Follows p other s.exclusive imp := by
  have hsame (hd : IsTermOf p imp.consequent) {t : Term} (ht : t ∈ s.exclusive) :
      t.source = imp.consequent.source ↔ t = imp.consequent :=
    ⟨(h.exclusive t ht).eq_of_source h.numbered hd, congrArg Term.source⟩
  have hiff (hd : IsTermOf p imp.consequent) :
      (∃ t ∈ s.exclusive, t.source = imp.consequent.source) ↔ imp.consequent ∈ s.exclusive := by
    constructor
    · rintro ⟨t, ht, hsource⟩
      rwa [← (hsame hd ht).mp hsource]
    · exact fun hmem => ⟨_, hmem, rfl⟩
  have hplace (hd : IsTermOf p imp.consequent) (i : Nat) :
      (∀ t ∈ s.exclusive.take (i + 1), t.source ≠ imp.consequent.source) ↔
        imp.consequent ∉ s.exclusive.take (i + 1) := by
    constructor
    · exact fun hnone hmem => hnone _ hmem rfl
    · intro hnone t ht hsource
      rw [hsame hd (List.mem_of_mem_take ht)] at hsource
      exact hnone (hsource ▸ ht)
  constructor
  · rintro ⟨⟨i, hi, hnone⟩, hconsequent, hjustified, hiff'⟩
    have hown' := (hown _).mp hconsequent
    obtain ⟨hpredicate, hbefore⟩ := exists_place_iff.mp ⟨i, hi, (hplace hown'.term i).mp hnone⟩
    rw [hiff hown'.term] at hiff'
    exact ⟨hpredicate, hown', hjustified, hiff', fun h => hbefore (hiff'.mp h)⟩
  · rintro ⟨hpredicate, hown', hjustified, hiff', hbefore⟩
    obtain ⟨i, hi, hnone⟩ := exists_place_iff.mpr ⟨hpredicate, fun h => hbefore (hiff'.mpr h)⟩
    rw [← hiff hown'.term] at hiff'
    exact ⟨⟨i, hi, (hplace hown'.term i).mpr hnone⟩, (hown _).mpr hown', hjustified, hiff'⟩

/-- Implications are stated in one direction, and between different terms. -/
theorem source_ne_of_mem_implications (hne : l.1 ≠ r.1) (hl : l.2.Numbered) (hr : r.2.Numbered)
    (h : imp ∈ (ofChildren l r).implications) : imp.predicate.source ≠ imp.consequent.source ∧
      ∀ j ∈ (ofChildren l r).implications, ¬(j.predicate.source = imp.consequent.source ∧
        j.consequent.source = imp.predicate.source) := by
  have hyields := yields_of_mem_implications h
  constructor
  · rcases hyields with hyields | hyields <;> exact hyields.source_ne
  · rintro j hj ⟨hpredicate, hconsequent⟩
    obtain ⟨s, p, -, himp, hj'⟩ := exists_common_half hne hl hr hyields
      (yields_of_mem_implications hj) (.inr rfl) (.inl hpredicate.symm)
    exact himp.not_reversed hj' hpredicate hconsequent

/-- What is built from two children of which neither says anything twice. -/
theorem mem_implications_iff_follows (hne : l.1 ≠ r.1) (hl : l.2.Tidy) (hr : r.2.Tidy) {c d : Term}
    (hc : l.2.conditionTerm? l.1 = some c) (hd : r.2.conditionTerm? r.1 = some d) :
    imp ∈ (ofChildren l r).implications ↔
      Follows l r (ofChildren l r).left.exclusive imp ∨
        Follows r l (ofChildren l r).right.exclusive imp := by
  rw [mem_implications_iff hne hl.numbered hr.numbered,
    (Half.isAbout_left hl.numbered).yields_iff fun t => mem_differing_left hl hr ⟨d, hd⟩,
    (Half.isAbout_right hr.numbered).yields_iff fun t =>
      mem_differing_swap.trans (mem_differing_left hr hl ⟨c, hc⟩)]

end Following

end Contrast

/-! ## Two children of a point -/

namespace Context

section Children

variable {ctx : Context} {id : Nat} {p : Point} {l r : Nat × Point}

/-- A child has a condition. -/
theorem Attained.conditionTerm? (h : ctx.Attained) (hp : ctx.points[id]? = some p)
    (hchild : l.1 ∈ p.children) (hpoint : ctx.points[l.1]? = some l.2) :
    ∃ c, l.2.conditionTerm? l.1 = some c := by
  obtain ⟨s, polarity, hkind⟩ := h.wellFormed.kind_of_mem_children hp hchild hpoint
  rw [Point.conditionTerm?, hkind]
  exact ⟨_, rfl⟩

/-- **What is built from two children.** Let neither of two children of a point have two variables
of one name, or two invariants with one formula in a slice. If nothing in their slices excludes
anything, nothing is built. Otherwise the exclusive terms begin with the conditions, if both can be
written, as they can, and go on with what excludes each other, and what is built is exactly what
follows for either child. No two of the implications relate the same terms, no term implies itself,
and no equivalence is stated in both directions. -/
theorem content_ofChildren (h : ctx.Attained) (hp : ctx.points[id]? = some p)
    (hl : l.1 ∈ p.children) (hr : r.1 ∈ p.children) (hne : l.1 ≠ r.1)
    (hleft : ctx.points[l.1]? = some l.2) (hright : ctx.points[r.1]? = some r.2)
    (hdistinct : l.2.Distinct) (hdistinct' : r.2.Distinct) :
    ((∀ x, ¬Clash l r x) → (ofChildren l r).implications = []) ∧
    ((∃ x, Clash l r x) →
      (∃ pairs, (ofChildren l r).exclusive = conditions l r ++ pairs ∧
        ∀ x, x ∈ pairs ↔ Clash l r x) ∧
      (∃ c d, l.2.conditionTerm? l.1 = some c ∧ r.2.conditionTerm? r.1 = some d ∧
        conditions l r = [(c, d)]) ∧
      ∀ imp, imp ∈ (ofChildren l r).implications ↔
        Follows l r ((ofChildren l r).exclusive.map Prod.fst) imp ∨
          Follows r l ((ofChildren l r).exclusive.map Prod.snd) imp) ∧
    ((ofChildren l r).implications.Pairwise fun i j => ¬i.RelatesAs j) ∧
    ∀ i ∈ (ofChildren l r).implications, i.predicate.source ≠ i.consequent.source ∧
      ∀ j ∈ (ofChildren l r).implications,
        ¬(j.predicate.source = i.consequent.source ∧
          j.consequent.source = i.predicate.source) := by
  have htidy : l.2.Tidy := { h.keyed hleft, hdistinct with }
  have htidy' : r.2.Tidy := { h.keyed hright, hdistinct' with }
  obtain ⟨c, hc⟩ := h.conditionTerm? hp hl hleft
  obtain ⟨d, hd⟩ := h.conditionTerm? hp hr hright
  have himp (imp : Implication) : imp ∈ (ofChildren l r).implications ↔ _ :=
    mem_implications_iff_follows hne htidy htidy' hc hd
  refine ⟨fun hnone => ?_, fun hsome => ⟨exclusive_eq_append htidy htidy' hsome, ?_, himp⟩,
    pairwise_implications hne,
    fun i hi => source_ne_of_mem_implications hne htidy.numbered htidy'.numbered hi⟩
  · rw [implications, exclusive_eq_nil htidy htidy' hnone]
    rfl
  · exact ⟨c, d, hc, hd, by rw [conditions, hc, hd]⟩

theorem distinct_signChild (polarity : Bool) (values : List Int64) (n : Nat) :
    (signChild polarity values n).Distinct where
  names := List.nodup_singleton _
  formulas s hs := by
    obtain rfl := List.mem_singleton.mp hs
    exact List.nodup_singleton _

/-- The two values exclude each other, so what the second child found out is equivalent to its
condition. -/
theorem content_ofChildren_signs :
    let l := (1, signChild false [-1] 3)
    let r := (2, signChild true [1] 3)
    (∃ x, Clash l r x) ∧ (∃ pairs c d, (ofChildren l r).exclusive = (c, d) :: pairs) ∧
      Follows r l ((ofChildren l r).exclusive.map Prod.snd) isOne := by
  intro l r
  have hp : (ofValues.after signs).points[0]? = some (signParent [-1, 1] 6 []) := by
    rw [points_signs]
    rfl
  have hleft : (ofValues.after signs).points[l.1]? = some l.2 := by
    rw [points_signs]
    rfl
  have hright : (ofValues.after signs).points[r.1]? = some r.2 := by
    rw [points_signs]
    rfl
  obtain ⟨-, hcontent, -, -⟩ := content_ofChildren ⟨ofValues, signs, rfl, rfl⟩ hp
    (show l.1 ∈ [1, 2] by decide) (show r.1 ∈ [1, 2] by decide) (by decide) hleft hright
    (distinct_signChild _ _ _) (distinct_signChild _ _ _)
  have hclash : ∃ x, Clash l r x :=
    ⟨_, .of_excludes List.mem_cons_self List.mem_cons_self List.mem_cons_self List.mem_cons_self
      rfl (by decide +kernel)⟩
  obtain ⟨⟨pairs, hpairs, -⟩, ⟨c, d, -, -, hconditions⟩, himp⟩ := hcontent hclash
  have hone : isOne ∈ (ofChildren l r).implications := by
    rw [implications_signs]
    exact List.mem_cons_of_mem _ List.mem_cons_self
  rw [hconditions] at hpairs
  refine ⟨hclash, ⟨pairs, c, d, hpairs⟩, ((himp isOne).mp hone).resolve_left fun hfollows => ?_⟩
  -- what it is about is the second child
  exact absurd hfollows.consequent.term.point (by decide)

end Children

end Context

end LikelyInvariants
