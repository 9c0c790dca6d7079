import LikelyInvariants.Proofs.Implication.Currency
import LikelyInvariants.Proofs.Siblings
import LikelyInvariants.Proofs.Splitter

/-!
# Which children are contrasted

Children that have seen samples are paired from the front, by the texts of their conditions. The
pairs are the right ones. A text says which condition it is, a point has no two children for a
condition and a polarity, and a second child comes directly after the first. So a pair is the first
and the second child of one splitter, and a child that is left without its sibling, because the
sibling has no samples or does not exist, is passed over and takes no other child away
(`Context.pairs_siblings`).
-/

namespace LikelyInvariants

open Update Contrast

/-! ## Pairing from the front -/

section Front

variable {ps post : List (Nat × Point)} {l r : Nat × Point}

/-- Only neighbours of opposite polarity are paired. -/
theorem isOpposite_of_mem_siblingPairs (h : (l, r) ∈ siblingPairs ps) :
    l.2.isOpposite r.2 ∧ [l, r] <:+: ps := by
  fun_induction siblingPairs ps with
  | case1 p q rest hopposite ih =>
    rcases List.mem_cons.mp h with heq | hrest
    · cases heq
      exact ⟨hopposite, [], rest, rfl⟩
    · obtain ⟨hpair, before, after, rfl⟩ := ih hrest
      exact ⟨hpair, p :: q :: before, after, rfl⟩
  | case2 p q rest hopposite ih =>
    obtain ⟨hpair, before, after, heq⟩ := ih h
    exact ⟨hpair, p :: before, after, by rw [← heq]; rfl⟩
  | case3 => cases h

/-- Neighbours of opposite polarity are paired, unless one before them is paired with the first. -/
theorem mem_siblingPairs_of_neighbours (hopposite : l.2.isOpposite r.2) :
    ∀ pre : List (Nat × Point), (∀ x ∈ pre, x.2.isOpposite l.2 = false) →
      (l, r) ∈ siblingPairs (pre ++ l :: r :: post)
  | [], _ => by
    rw [List.nil_append, siblingPairs, if_pos hopposite]
    exact List.mem_cons_self
  | [x], hpre => by
    have hx : x.2.isOpposite l.2 = false := hpre x List.mem_cons_self
    rw [List.cons_append, List.nil_append, siblingPairs, if_neg (by simp [hx]), siblingPairs,
      if_pos hopposite]
    exact List.mem_cons_self
  | x :: y :: pre, hpre => by
    have htail : ∀ z ∈ y :: pre, z.2.isOpposite l.2 = false := by
      intro z hz
      exact hpre z (List.mem_cons_of_mem x hz)
    have hrest : ∀ z ∈ pre, z.2.isOpposite l.2 = false := by
      intro z hz
      exact htail z (List.mem_cons_of_mem y hz)
    rw [List.cons_append, List.cons_append, siblingPairs]
    split
    · exact List.mem_cons_of_mem _ (mem_siblingPairs_of_neighbours hopposite pre hrest)
    · exact mem_siblingPairs_of_neighbours hopposite (y :: pre) htail

/-- Two points are the two children of one condition if their kinds say so. -/
theorem of_isOpposite {p q : Point} (h : p.isOpposite q) : ∃ i j s polarity,
    p.kind = .conditional i s polarity ∧ q.kind = .conditional j s !polarity := by
  unfold Point.isOpposite at h
  split at h
  · next i s b j t c hp hq =>
    simp only [Bool.and_eq_true, decide_eq_true_eq] at h
    obtain ⟨hpolarity, hcondition⟩ := h
    obtain rfl := Splitter.condition_injective hcondition
    refine ⟨i, j, s, b, hp, ?_⟩
    rw [hq]
    congr 1
    cases b <;> cases c <;> simp_all
  · cases h

end Front

namespace Context

variable {ctx : Context} {id : Nat} {p : Point}

/-! ## The children of one splitter -/

section Halves

/-- A second child comes directly after the first. -/
theorem Littered.first_before_second (h : ctx.Littered) (hp : ctx.points[id]? = some p) {r : Nat}
    (hr : r ∈ p.children) {q : Point} {s : Splitter} (hq : ctx.points[r]? = some q)
    (hkind : q.kind = .conditional id s true) :
    ∃ (before after : List Nat) (l : Nat) (first : Point), p.children = before ++ l :: r :: after ∧
      ctx.points[l]? = some first ∧ first.kind = .conditional id s false := by
  obtain ⟨litters, hchildren, hlitters⟩ := h.litters hp
  rw [hchildren] at hr
  obtain ⟨litter, hlitter, hmem⟩ := List.mem_flatten.mp hr
  obtain ⟨before, after, rfl⟩ := List.append_of_mem hlitter
  cases hlitters litter hlitter with
  | @both l r' first second t hl hr' hfirst hsecond =>
    rcases List.mem_pair.mp hmem with rfl | rfl
    · rw [hq] at hl
      cases hl
      rw [hkind] at hfirst
      cases hfirst
    · rw [hq] at hr'
      cases hr'
      rw [hkind] at hsecond
      cases hsecond
      exact ⟨before.flatten, after.flatten, l, first, by rw [hchildren]; simp, hl, hfirst⟩
  | @lone l j first other t hl hj hfirst hname hother =>
    obtain rfl := List.mem_singleton.mp hmem
    rw [hq] at hl
    cases hl
    rw [hkind] at hfirst
    cases hfirst

theorem sampled?_of_point {child : Nat} {q : Point} (hq : ctx.points[child]? = some q)
    (hsamples : 0 < q.samples) : ctx.sampled? child = some (child, q) := by
  simp [sampled?, hq, hsamples]

theorem samples_pos_of_mem {x : Nat × Point} (h : x ∈ ctx.sampledChildren p) : 0 < x.2.samples := by
  obtain ⟨child, -, hx⟩ := List.mem_filterMap.mp ((sublist_sampledChildren ctx p).subset h)
  unfold sampled? at hx
  obtain ⟨q, -, hq⟩ := Option.bind_eq_some_iff.mp hx
  split at hq
  · cases hq
    assumption
  · cases hq

/-- Neighbours among the children that have seen samples stay neighbours. -/
theorem sampledChildren_of_neighbours (hall : ctx.config.pairwiseImplications = true)
    {before after : List Nat} {l r : Nat} {first second : Point}
    (hchildren : p.children = before ++ l :: r :: after) (hl : ctx.points[l]? = some first)
    (hr : ctx.points[r]? = some second) (hl' : 0 < first.samples) (hr' : 0 < second.samples) :
    ctx.sampledChildren p = before.filterMap ctx.sampled? ++
      (l, first) :: (r, second) :: after.filterMap ctx.sampled? := by
  have hsampled : ctx.sampledChildren p = p.children.filterMap ctx.sampled? := if_pos hall
  rw [hsampled, hchildren, List.filterMap_append, List.filterMap_cons_some
    (sampled?_of_point hl hl'), List.filterMap_cons_some (sampled?_of_point hr hr')]

end Halves

/-! ## The pairs -/

section Paired

/-- The numbers of a first and a second child, in this order. -/
theorem Attained.first_lt_second (h : ctx.Attained) (hp : ctx.points[id]? = some p) {l r : Nat}
    {first second : Point} {s : Splitter} (hl : ctx.points[l]? = some first)
    (hr : ctx.points[r]? = some second) (hfirst : first.kind = .conditional id s false)
    (hsecond : second.kind = .conditional id s true) : l < r := by
  obtain ⟨hmem, -⟩ := h.wellFormed.mem_children_of_kind hp hr hsecond
  obtain ⟨before, after, l', first', hchildren, hl', hfirst'⟩ :=
    h.littered.first_before_second hp hmem hr hsecond
  obtain rfl := h.wellFormed.child_unique hl hl' hfirst hfirst'
  have hascending := (List.pairwise_cons.mp (h.wellFormed.ascending hp)).2
  rw [hchildren] at hascending
  have hrest := (List.pairwise_append.mp hascending).2.1
  exact (List.pairwise_cons.mp hrest).1 r List.mem_cons_self

/-- The two children of a pair are those of one splitter, in their order. -/
theorem Attained.of_mem_siblingPairs (h : ctx.Attained) (hp : ctx.points[id]? = some p)
    {l r : Nat × Point} (hpair : (l, r) ∈ siblingPairs (ctx.sampledChildren p)) :
    ∃ s, l.2.kind = .conditional id s false ∧ r.2.kind = .conditional id s true := by
  obtain ⟨hopposite, hneighbours⟩ := isOpposite_of_mem_siblingPairs hpair
  obtain ⟨i, j, s, polarity, hfirst, hsecond⟩ := of_isOpposite hopposite
  obtain ⟨hl, hr⟩ := mem_siblingPairs hpair
  obtain ⟨hlchild, hlpoint⟩ := mem_sampledChildren hl
  obtain ⟨hrchild, hrpoint⟩ := mem_sampledChildren hr
  -- both are children of the point
  obtain rfl := h.wellFormed.parent_of_mem_children hp hlchild hlpoint hfirst
  obtain rfl := h.wellFormed.parent_of_mem_children hp hrchild hrpoint hsecond
  have hbefore : l.1 < r.1 := by
    have hsub := (hneighbours.sublist.map Prod.fst).trans (sublist_numbers_sampledChildren ctx p)
    have hascending := (List.pairwise_cons.mp (h.wellFormed.ascending hp)).2.sublist hsub
    simpa using hascending
  cases polarity with
  | false => exact ⟨s, hfirst, hsecond⟩
  | true =>
    have hafter := h.first_lt_second hp hrpoint hlpoint hsecond hfirst
    omega

/-- The one child that is opposite to the first child of a splitter is the second. -/
theorem Attained.eq_second_of_isOpposite (h : ctx.Attained) (hp : ctx.points[id]? = some p)
    {r : Nat} {first second : Point} {s : Splitter} (hr : ctx.points[r]? = some second)
    (hfirst : first.kind = .conditional id s false) (hsecond : second.kind = .conditional id s true)
    {child : Nat} {q : Point} (hchild : child ∈ p.children) (hq : ctx.points[child]? = some q)
    (hopposite : q.isOpposite first) : child = r := by
  obtain ⟨i, j, t, polarity, hkind, hother⟩ := of_isOpposite hopposite
  obtain rfl := h.wellFormed.parent_of_mem_children hp hchild hq hkind
  rw [hfirst, PointKind.conditional.injEq] at hother
  obtain ⟨rfl, rfl, hpolarity⟩ := hother
  obtain rfl : polarity = true := by simpa using hpolarity.symm
  exact h.wellFormed.child_unique hq hr hkind hsecond

/-- If all children are looked at, no two that belong together are missed. -/
theorem Attained.mem_siblingPairs (h : ctx.Attained) (hp : ctx.points[id]? = some p)
    (hall : ctx.config.pairwiseImplications = true) {l r : Nat} {first second : Point}
    {s : Splitter} (hl : ctx.points[l]? = some first) (hr : ctx.points[r]? = some second)
    (hfirst : first.kind = .conditional id s false) (hsecond : second.kind = .conditional id s true)
    (hl' : 0 < first.samples) (hr' : 0 < second.samples) :
    ((l, first), (r, second)) ∈ siblingPairs (ctx.sampledChildren p) := by
  obtain ⟨hmem, -⟩ := h.wellFormed.mem_children_of_kind hp hr hsecond
  obtain ⟨before, after, l', first', hchildren, hl'', hfirst'⟩ :=
    h.littered.first_before_second hp hmem hr hsecond
  obtain rfl := h.wellFormed.child_unique hl hl'' hfirst hfirst'
  rw [sampledChildren_of_neighbours hall hchildren hl hr hl' hr']
  apply mem_siblingPairs_of_neighbours
  · simp [Point.isOpposite, hfirst, hsecond]
  · -- a child before the pair that is opposite to the first would be the second
    intro x hx
    obtain ⟨child, hchild, hx⟩ := List.mem_filterMap.mp hx
    obtain ⟨rfl, hpoint⟩ := of_sampled? hx
    rw [Bool.eq_false_iff]
    intro hopposite
    have hxmem : x.1 ∈ p.children := by
      rw [hchildren]
      exact List.mem_append_left _ hchild
    have hsame := h.eq_second_of_isOpposite hp hr hfirst hsecond hxmem hpoint hopposite
    have hnodup := h.wellFormed.isForest.nodup_children hp
    rw [hchildren] at hnodup
    have hapart := (List.nodup_append.mp hnodup).2.2 x.1 hchild r (by simp)
    exact hapart hsame

/-- **The pairs that are contrasted are the siblings.** Where implications are built, each pair of
children that is contrasted is the first and the second child of one splitter of the point, both
have seen samples, and no child is in two pairs. If all children are looked at, every splitter both
of whose children have seen samples is among the pairs. -/
theorem pairs_siblings (h : ctx.Attained) (hp : ctx.points[id]? = some p) :
    (addImplications id).exec ctx = (.ok (ctx.contrasted p).implications.length, ctx.built id p) ∧
    (∀ l r, (l, r) ∈ siblingPairs (ctx.sampledChildren p) →
      l.1 ∈ p.children ∧ r.1 ∈ p.children ∧
        ctx.points[l.1]? = some l.2 ∧ ctx.points[r.1]? = some r.2 ∧
        0 < l.2.samples ∧ 0 < r.2.samples ∧
        ∃ s, l.2.kind = .conditional id s false ∧ r.2.kind = .conditional id s true) ∧
    ((siblingPairs (ctx.sampledChildren p)).flatMap fun x => [x.1.1, x.2.1]).Nodup ∧
    (ctx.config.pairwiseImplications = true → ∀ (l r : Nat) (first second : Point) (s : Splitter),
      ctx.points[l]? = some first → ctx.points[r]? = some second →
      first.kind = .conditional id s false → second.kind = .conditional id s true →
      0 < first.samples → 0 < second.samples →
      ((l, first), (r, second)) ∈ siblingPairs (ctx.sampledChildren p)) := by
  refine ⟨exec_addImplications_some hp, fun l r hpair => ?_,
    ctx.nodup_siblingPairs (h.wellFormed.isForest.nodup_children hp), fun hall l r first second s
      hl hr hfirst hsecond hl' hr' => h.mem_siblingPairs hp hall hl hr hfirst hsecond hl' hr'⟩
  obtain ⟨hl, hr⟩ := mem_siblingPairs hpair
  obtain ⟨hlchild, hlpoint⟩ := mem_sampledChildren hl
  obtain ⟨hrchild, hrpoint⟩ := mem_sampledChildren hr
  exact ⟨hlchild, hrchild, hlpoint, hrpoint, samples_pos_of_mem hl, samples_pos_of_mem hr,
    h.of_mem_siblingPairs hp hpair⟩

/-- All children are looked at. A point is split by two conditions, and one child sees no sample. -/
def lopsided : Context × List Action :=
  ({ ofValues with config := { pairwiseImplications := true } },
    [.addPoint "P" [{ name := "x", type := .int }],
      .split 0 [.compare "x" .gt 5, .compare "x" .gt 0],
      .add 0 ⟨[some ⟨.int 1, true⟩]⟩ 1, .add 0 ⟨[some ⟨.int (-1), true⟩]⟩ 1])

/-- The first child is left without its sibling. The two children after it are paired. -/
theorem pairs_siblings_lopsided :
    let ctx := lopsided.1.after lopsided.2
    ∃ p first second, ctx.points[0]? = some p ∧ p.children = [1, 2, 3, 4] ∧
      (ctx.sampledChildren p).map Prod.fst = [1, 3, 4] ∧
      ((3, first), (4, second)) ∈ siblingPairs (ctx.sampledChildren p) := by
  intro ctx
  obtain ⟨p, hp, hchildren⟩ := Option.map_eq_some_iff.mp
    (show ctx.points[0]?.map (fun p => (p.children, (ctx.sampledChildren p).map Prod.fst)) =
      some ([1, 2, 3, 4], [1, 3, 4]) by decide +kernel)
  obtain ⟨first, hfirst, hfirst'⟩ := Option.map_eq_some_iff.mp
    (show ctx.points[3]?.map (fun q => (q.kind, decide (0 < q.samples))) =
      some (.conditional 0 (.compare "x" .gt 0) false, true) by decide +kernel)
  obtain ⟨second, hsecond, hsecond'⟩ := Option.map_eq_some_iff.mp
    (show ctx.points[4]?.map (fun q => (q.kind, decide (0 < q.samples))) =
      some (.conditional 0 (.compare "x" .gt 0) true, true) by decide +kernel)
  obtain ⟨-, -, -, hpaired⟩ := pairs_siblings ⟨lopsided.1, lopsided.2, rfl, rfl⟩ hp
  simp only [Prod.mk.injEq, decide_eq_true_eq] at hchildren hfirst' hsecond'
  exact ⟨p, first, second, hp, hchildren.1, hchildren.2, hpaired (by decide +kernel) 3 4 first second
    _ hfirst hsecond hfirst'.1 hsecond'.1 hfirst'.2 hsecond'.2⟩

end Paired

end Context

end LikelyInvariants
