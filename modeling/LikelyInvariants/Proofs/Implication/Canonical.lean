import LikelyInvariants.Proofs.Implication.Representative

/-!
# Implications that need not be held

A one-way implication about a term that is not canonical is dropped. It still follows from what is
held, provided that equivalent terms lead one way to the same terms, and that nothing they lead to
is equivalent to anything (`Implication.IsClosed`). This is how implications are built: in one half,
every exclusive term leads to every term that is not exclusive. So what a point holds after its
implications were built entails all that were built (`Context.entails_built`).
-/

namespace LikelyInvariants

open Update Contrast

namespace Implication

/-- An implication is true if its terms have these truth values. -/
def IsTrueUnder (v : TermSource → Prop) (i : Implication) : Prop :=
  if i.iff then (v i.predicate.source ↔ v i.consequent.source)
  else v i.predicate.source → v i.consequent.source

/-! ## What is entailed -/

section Entailing

variable {imps : List Implication} {v : TermSource → Prop} {a b d : TermSource}

/-- A one-way implication leads from one term to another. -/
def Leads (imps : List Implication) (a b : TermSource) : Prop :=
  ∃ i ∈ imps, i.iff = false ∧ i.predicate.source = a ∧ i.consequent.source = b

/-- Equivalent terms lead to the same terms, and what they lead to is equivalent to nothing. -/
structure IsClosed (imps : List Implication) : Prop where
  free : ∀ a d, Leads imps a d → ∀ x ∈ equations imps, d ≠ x.1 ∧ d ≠ x.2
  carried : ∀ x ∈ equations imps, ∀ d, Leads imps x.1 d ↔ Leads imps x.2 d

theorem IsClosed.congr {more : List Implication} (h : IsClosed imps)
    (hsame : ∀ i, i ∈ more ↔ i ∈ imps) : IsClosed more := by
  have hleads (a b : TermSource) : Leads more a b ↔ Leads imps a b := by
    simp only [Leads, hsame]
  have hequations (x : TermSource × TermSource) : x ∈ equations more ↔ x ∈ equations imps := by
    simp only [mem_equations, hsame]
  constructor
  · intro a d hd x hx
    exact h.free a d ((hleads a d).mp hd) x ((hequations x).mp hx)
  · intro x hx d
    rw [hleads, hleads]
    exact h.carried x ((hequations x).mp hx) d

/-- Two-way implications are never dropped. -/
theorem linked_under (hv : ∀ i ∈ canonicalize imps, i.IsTrueUnder v)
    (h : Partition.Linked (equations imps) a b) : v a ↔ v b := by
  have hequivalence : Equivalence fun a b => v a ↔ v b := ⟨fun _ => .rfl, .symm, .trans⟩
  apply h.lift hequivalence
  intro x hx
  obtain ⟨i, hi, hiff, hfirst, hsecond⟩ := mem_equations.mp hx
  have htrue := hv i (mem_canonicalize.mpr ⟨hi, .inl hiff⟩)
  rwa [IsTrueUnder, if_pos hiff, hfirst, hsecond] at htrue

theorem IsClosed.leads_iff (h : IsClosed imps) (hlinked : Partition.Linked (equations imps) a b) :
    Leads imps a d ↔ Leads imps b d := by
  have hequivalence : Equivalence fun a b => Leads imps a d ↔ Leads imps b d :=
    ⟨fun _ => .rfl, .symm, .trans⟩
  apply hlinked.lift hequivalence
  intro x hx
  exact h.carried x hx d

/-- What stays entails what is dropped: a canonical term leads where the ones it stands for do. -/
theorem IsClosed.entails (h : IsClosed imps) (hv : ∀ i ∈ canonicalize imps, i.IsTrueUnder v) :
    ∀ i ∈ imps, i.IsTrueUnder v := by
  intro i hi
  cases hiff : i.iff with
  | true => exact hv i (mem_canonicalize.mpr ⟨hi, .inl hiff⟩)
  | false =>
    have hleads : Leads imps i.predicate.source i.consequent.source := ⟨i, hi, hiff, rfl, rfl⟩
    obtain ⟨m, hm, hlinked⟩ := exists_canonical imps i.predicate.source
    -- the canonical term leads to the same consequent, which is canonical itself
    obtain ⟨j, hj, hiff', hpredicate, hconsequent⟩ := (h.leads_iff hlinked).mp hleads
    have hcanonical := isCanonical_of_free (h.free _ _ hleads)
    rw [← hpredicate] at hm
    rw [← hconsequent] at hcanonical
    have htrue := hv j (mem_canonicalize.mpr ⟨hj, .inr ⟨hm, hcanonical⟩⟩)
    rw [IsTrueUnder, if_neg (by simp [hiff']), hpredicate, hconsequent] at htrue
    rw [IsTrueUnder, if_neg (by simp [hiff])]
    intro hleft
    exact htrue ((linked_under hv hlinked).mp hleft)

end Entailing

end Implication

/-! ## What is built -/

namespace Contrast.Half

variable {s : Half} {p : Nat × Point} {imp : Implication}

theorem Yields.source_ne_of_mem (h : s.Yields imp) (hone : imp.iff = false) {t : Term}
    (ht : t ∈ s.exclusive) : t.source ≠ imp.consequent.source := by
  intro hsource
  have hiff := h.iff.mpr ⟨t, ht, hsource⟩
  rw [hone] at hiff
  cases hiff

/-- What follows one way from an exclusive term follows from every justified one. -/
theorem Yields.of_exclusive (h : s.Yields imp) (hone : imp.iff = false) {t : Term}
    (ht : t ∈ s.exclusive) (hjustified : t.justified) :
    s.Yields { predicate := t, consequent := imp.consequent, iff := false } := by
  obtain ⟨i, hi, rfl⟩ := List.getElem_of_mem ht
  constructor
  · refine ⟨i, List.getElem?_eq_getElem hi, ?_⟩
    intro u hu
    exact h.source_ne_of_mem hone (List.mem_of_mem_take hu)
  · exact h.consequent
  · exact ⟨hjustified, h.justified.2⟩
  · simpa [hone] using h.iff

/-- The terms of an equivalence are exclusive. -/
theorem IsAbout.consequent_mem (h : s.IsAbout p) (hyields : s.Yields imp) (hiff : imp.iff) :
    imp.consequent ∈ s.exclusive := by
  obtain ⟨t, ht, hsource⟩ := hyields.iff.mp hiff
  rwa [← (h.exclusive t ht).eq_of_source h.numbered (h.differing _ hyields.consequent) hsource]

end Contrast.Half

namespace Context

section Built

variable {ctx : Context} {id : Nat} {p : Point} {imp : Implication}

/-- The halves of the pairs of children, each with the number of its child. -/
def halves (ctx : Context) (p : Point) : List (Nat × Half) :=
  (siblingPairs (ctx.sampledChildren p)).flatMap fun x =>
    [(x.1.1, (ofChildren x.1 x.2).left), (x.2.1, (ofChildren x.1 x.2).right)]

/-- No child is in two pairs, so its number tells its half. -/
theorem halves_unique (hchildren : p.children.Nodup) {x y : Nat × Half} (hx : x ∈ ctx.halves p)
    (hy : y ∈ ctx.halves p) (hsame : x.1 = y.1) : x = y := by
  have hnodup := ctx.nodup_siblingPairs hchildren
  refine List.inj_on_of_nodup_map (f := Prod.fst) ?_ hx hy hsame
  rw [halves, List.map_flatMap]
  exact hnodup

theorem Attained.isAbout (h : ctx.Attained) {x : Nat × Half} (hx : x ∈ ctx.halves p) :
    ∃ q, x.2.IsAbout (x.1, q) := by
  obtain ⟨⟨l, r⟩, hpair, hx⟩ := List.mem_flatMap.mp hx
  obtain ⟨hl, hr⟩ := mem_siblingPairs hpair
  rcases List.mem_pair.mp hx with rfl | rfl
  · exact ⟨l.2, Half.isAbout_left (h.keyed (mem_sampledChildren hl).2).numbered⟩
  · exact ⟨r.2, Half.isAbout_right (h.keyed (mem_sampledChildren hr).2).numbered⟩

theorem exists_half (h : imp ∈ (ctx.contrasts p).flatMap implications) :
    ∃ x ∈ ctx.halves p, x.2.Yields imp := by
  obtain ⟨⟨l, r⟩, hpair, himp⟩ := mem_flatMap_parts.mp h
  rcases yields_of_mem_implications himp with hyields | hyields
  · exact ⟨_, List.mem_flatMap.mpr ⟨_, hpair, List.mem_cons_self⟩, hyields⟩
  · exact ⟨_, List.mem_flatMap.mpr ⟨_, hpair, List.mem_cons_of_mem _ List.mem_cons_self⟩, hyields⟩

theorem exists_built {x : Nat × Half} (hx : x ∈ ctx.halves p) (hyields : x.2.Yields imp) :
    ∃ j ∈ (ctx.contrasts p).flatMap implications, imp.isSameAs j := by
  obtain ⟨⟨l, r⟩, hpair, hx⟩ := List.mem_flatMap.mp hx
  have hsides : (ofChildren l r).left.Yields imp ∨ (ofChildren l r).right.Yields imp := by
    rcases List.mem_pair.mp hx with rfl | rfl
    · exact .inl hyields
    · exact .inr hyields
  obtain ⟨j, hj, hsame⟩ := exists_mem_implications hsides
  exact ⟨j, mem_flatMap_parts.mpr ⟨_, hpair, hj⟩, hsame⟩

/-- Implications that have a term in common come from one half. -/
theorem Attained.same_half (h : ctx.Attained) (hp : ctx.points[id]? = some p) {i j : Implication}
    (hi : i ∈ (ctx.contrasts p).flatMap implications)
    (hj : j ∈ (ctx.contrasts p).flatMap implications) {a : TermSource} (ha : i.Mentions a)
    (ha' : j.Mentions a) :
    ∃ x ∈ ctx.halves p, ∃ q, x.2.IsAbout (x.1, q) ∧ x.2.Yields i ∧ x.2.Yields j := by
  obtain ⟨x, hx, hi⟩ := exists_half hi
  obtain ⟨y, hy, hj⟩ := exists_half hj
  obtain ⟨q, habout⟩ := h.isAbout hx
  obtain ⟨q', habout'⟩ := h.isAbout hy
  obtain rfl := halves_unique (h.wellFormed.isForest.nodup_children hp) hx hy
    ((habout.point hi ha).symm.trans (habout'.point hj ha'))
  exact ⟨x, hx, q, habout, hi, hj⟩

/-- In a half, every justified exclusive term leads to what one of them leads to. -/
theorem leads_of_exclusive {x : Nat × Half} (hx : x ∈ ctx.halves p) (h : x.2.Yields imp)
    (hone : imp.iff = false) {t : Term} (ht : t ∈ x.2.exclusive) (hjustified : t.justified) :
    Implication.Leads ((ctx.contrasts p).flatMap implications) t.source imp.consequent.source := by
  obtain ⟨j, hj, hsame⟩ := exists_built hx (h.of_exclusive hone ht hjustified)
  obtain ⟨⟨hpredicate, hconsequent⟩, hiff⟩ := Implication.isSameAs_iff.mp hsame
  exact ⟨j, hj, hiff.symm, hpredicate.symm, hconsequent.symm⟩

/-- What is built is closed: the terms of an equivalence are exclusive in their half, and what
follows one way from one of them is not. -/
theorem Attained.isClosed (h : ctx.Attained) (hp : ctx.points[id]? = some p) :
    Implication.IsClosed ((ctx.contrasts p).flatMap implications) where
  free := by
    rintro a d ⟨i, hi, hone, -, rfl⟩ ⟨e, f⟩ hx
    obtain ⟨j, hj, hiff, rfl, rfl⟩ := Implication.mem_equations.mp hx
    constructor
    · intro hsame
      obtain ⟨x, -, q, -, hi, hj⟩ := h.same_half hp hi hj (.inr rfl) (.inl hsame)
      exact hi.source_ne_of_mem hone hj.predicate_mem hsame.symm
    · intro hsame
      obtain ⟨x, -, q, habout, hi, hj⟩ := h.same_half hp hi hj (.inr rfl) (.inr hsame)
      exact hi.source_ne_of_mem hone (habout.consequent_mem hj hiff) hsame.symm
  carried := by
    rintro ⟨e, f⟩ hx d
    obtain ⟨j, hj, hiff, rfl, rfl⟩ := Implication.mem_equations.mp hx
    constructor
    · rintro ⟨i, hi, hone, hsame, rfl⟩
      obtain ⟨x, hx, q, habout, hi, hj⟩ := h.same_half hp hi hj (.inl rfl) (.inl hsame)
      exact leads_of_exclusive hx hi hone (habout.consequent_mem hj hiff) hj.justified.2
    · rintro ⟨i, hi, hone, hsame, rfl⟩
      obtain ⟨x, hx, q, -, hi, hj⟩ := h.same_half hp hi hj (.inl rfl) (.inr hsame)
      exact leads_of_exclusive hx hi hone hj.predicate_mem hj.justified.1

/-- **Nothing that was built is lost.** If a point holds no implications and implications are built,
then those that it holds afterwards entail all that were built from any of the pairs of its
children: whatever the truth values of the terms, if the ones that are held are true, all are. -/
theorem entails_built (h : ctx.Attained) (hp : ctx.points[id]? = some p)
    (hnone : p.implications = []) :
    (addImplications id).exec ctx = (.ok (ctx.contrasted p).implications.length, ctx.built id p) ∧
    (ctx.built id p).points[id]? = some (ctx.contrasted p) ∧
    ∀ v : TermSource → Prop, (∀ i ∈ (ctx.contrasted p).implications, i.IsTrueUnder v) →
      ∀ l r, (l, r) ∈ siblingPairs (ctx.sampledChildren p) →
        ∀ i ∈ (ofChildren l r).implications, i.IsTrueUnder v := by
  refine ⟨exec_addImplications_some hp, List.getElem?_set_self (lt_of_point hp), ?_⟩
  intro v hv l r hpair i hi
  rw [implications_contrasted] at hv
  have hheld (i : Implication) :
      i ∈ ((ctx.contrasts p).flatMap implications).foldl
        (fun held i => if i ∈ held then held else held ++ [i]) p.implications ↔
      i ∈ (ctx.contrasts p).flatMap implications := by
    rw [mem_foldl_insert, hnone]
    exact or_iff_right List.not_mem_nil
  refine ((h.isClosed hp).congr hheld).entails hv i ((hheld i).mpr ?_)
  exact mem_flatMap_parts.mpr ⟨(l, r), hpair, hi⟩

/-- A point is split by the sign of one variable. The other one takes a value in both children, and
one more in the second. -/
def twoVariables : List Action :=
  [.addPoint "P" [{ name := "x", type := .int }, { name := "y", type := .int }],
    .split 0 [.compare "x" .gt 0],
    .add 0 ⟨[some ⟨.int (-1), true⟩, some ⟨.int 3, true⟩]⟩ 3,
    .add 0 ⟨[some ⟨.int 1, true⟩, some ⟨.int 3, true⟩]⟩ 3,
    .add 0 ⟨[some ⟨.int 1, true⟩, some ⟨.int 4, true⟩]⟩ 3]

/-- That `x` is `-1` implies that `y` is `3`. -/
def minusOneImpliesThree : Implication where
  predicate := ⟨.invariant 1 0, ⟨["x"], some ⟨.oneOf, "-1"⟩⟩, "x == -1", some "(EQ x -1)", true⟩
  consequent := ⟨.invariant 1 1, ⟨["y"], some ⟨.oneOf, "3"⟩⟩, "y == 3", some "(EQ y 3)", true⟩
  iff := false

def builtTwoVariables : List Implication :=
  builtFrom (1, boundedChild "x" 0 false [-1] [3] 3) (2, boundedChild "x" 0 true [1] [3, 4] 6)

/-- That `x` is `-1` is equivalent to the condition of the child, which is shorter. -/
theorem classes_twoVariables : minusOneImpliesThree ∈ builtTwoVariables ∧
    Implication.classes builtTwoVariables =
      [[.condition 1, .invariant 1 0], [.condition 2, .invariant 2 0]] ∧
    Implication.isPreferred
      (Implication.lastText (Implication.equivalenceTerms builtTwoVariables) (.invariant 1 0))
      (Implication.lastText (Implication.equivalenceTerms builtTwoVariables) (.condition 1)) := by
  unfold builtTwoVariables builtFrom ofChildren
  simp only [matchSlices_boundedChild (x := "x") (by decide) (by decide +kernel),
    List.map_cons, List.map_nil, ofSlices]
  rw [matchBy_of_keys [⟨["x"], some ⟨.oneOf, "-1"⟩⟩, ⟨["x"], some ⟨.oneOf, "1"⟩⟩]
      (by decide +kernel) (by decide +kernel),
    matchBy_of_keys [⟨["y"], some ⟨.oneOf, "3"⟩⟩, ⟨["y"], some ⟨.oneOf, "3, 4"⟩⟩]
      (by decide +kernel) (by decide +kernel)]
  decide +kernel

theorem dropped_twoVariables :
    minusOneImpliesThree ∉ Implication.canonicalize builtTwoVariables := by
  obtain ⟨-, hclasses, hpreferred⟩ := classes_twoVariables
  have hdropped : Implication.isCanonical (Implication.represented builtTwoVariables)
      (.invariant 1 0) = false := by
    unfold Implication.isCanonical Implication.represented
    simp [hclasses, Implication.best_pair (s := .condition 1) (t := .invariant 1 0) rfl, hpreferred]
  intro hmem
  have hkept := (Implication.mem_canonicalize.mp hmem).2
  simp [minusOneImpliesThree, hdropped] at hkept

/-- What was dropped is entailed by what is held. -/
theorem entails_built_twoVariables :
    let ctx := ofValues.after twoVariables
    ∃ p, ctx.points[0]? = some p ∧ p.implications = [] ∧
      minusOneImpliesThree ∉ (ctx.contrasted p).implications ∧
      ∀ v, (∀ i ∈ (ctx.contrasted p).implications, i.IsTrueUnder v) →
        minusOneImpliesThree.IsTrueUnder v := by
  intro ctx
  obtain ⟨p, hp, hholds⟩ := Option.map_eq_some_iff.mp
    (show ctx.points[0]?.map (fun p => (p.children, p.implications)) = some ([1, 2], []) by
      decide +kernel)
  obtain ⟨hchildren, hnone⟩ := Prod.mk.inj hholds
  have hpairs : siblingPairs (ctx.sampledChildren p) =
      [((1, boundedChild "x" 0 false [-1] [3] 3), (2, boundedChild "x" 0 true [1] [3, 4] 6))] := by
    unfold sampledChildren
    rw [hchildren]
    decide +kernel
  refine ⟨p, hp, hnone, ?_, fun v hv => ?_⟩
  · rw [implications_contrasted_of_pair hpairs (by decide +kernel) hnone]
    exact dropped_twoVariables
  · obtain ⟨-, -, hentails⟩ := entails_built ⟨ofValues, twoVariables, rfl, rfl⟩ hp hnone
    refine hentails v hv _ _ (by rw [hpairs]; exact List.mem_cons_self) _ ?_
    exact (mem_foldl_insert.mp classes_twoVariables.1).resolve_left List.not_mem_nil

end Built

end Context

end LikelyInvariants
