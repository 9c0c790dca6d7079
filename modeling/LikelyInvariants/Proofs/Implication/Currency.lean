import LikelyInvariants.Proofs.Implication.Holding
import LikelyInvariants.Proofs.Implication.Soundness
import Mathlib.Data.List.Induction
import Mathlib.Data.List.Nodup

/-!
# How long implications are current

The terms of an implication are taken down when it is built. At that moment they state what the
invariants of the children state (`Context.IsCurrent`). Samples that come later may change these
invariants, and the terms stay. So a term that a point holds was current when implications were
built at that point, now or earlier (`Context.wasCurrent_after`).
-/

namespace LikelyInvariants

open Update Contrast

/-! ## Pairs of children -/

section Pairs

/-- Children are paired one after the other, each at most once. -/
theorem sublist_siblingPairs (ps : List (Nat × Point)) :
    ((siblingPairs ps).flatMap fun x => [x.1, x.2]).Sublist ps := by
  fun_induction siblingPairs ps with
  | case1 p q rest hopposite ih => exact (ih.cons_cons q).cons_cons p
  | case2 p q rest hopposite ih => exact ih.cons p
  | case3 => exact List.nil_sublist _

end Pairs

namespace Context

variable {ctx ctx' : Context} {id : Nat} {p : Point}

/-! ## What is built -/

section Building

/-- The child with its number, if it has seen samples. -/
def sampled? (ctx : Context) (child : Nat) : Option (Nat × Point) := do
  let q ← ctx.points[child]?
  if q.samples > 0 then some (child, q) else none

theorem of_sampled? {child : Nat} {x : Nat × Point} (h : ctx.sampled? child = some x) :
    x.1 = child ∧ ctx.points[child]? = some x.2 := by
  unfold sampled? at h
  obtain ⟨q, hq, hx⟩ := Option.bind_eq_some_iff.mp h
  split at hx
  · cases hx
    exact ⟨rfl, hq⟩
  · cases hx

theorem sublist_sampledChildren (ctx : Context) (p : Point) :
    (ctx.sampledChildren p).Sublist (p.children.filterMap ctx.sampled?) := by
  unfold sampledChildren
  dsimp only
  split
  · exact .refl _
  · exact List.take_sublist 2 _

theorem mem_sampledChildren {x : Nat × Point} (h : x ∈ ctx.sampledChildren p) :
    x.1 ∈ p.children ∧ ctx.points[x.1]? = some x.2 := by
  obtain ⟨child, hchild, hx⟩ :=
    List.mem_filterMap.mp ((sublist_sampledChildren ctx p).subset h)
  obtain ⟨rfl, hpoint⟩ := of_sampled? hx
  exact ⟨hchild, hpoint⟩

theorem sublist_numbers_sampledChildren (ctx : Context) (p : Point) :
    ((ctx.sampledChildren p).map Prod.fst).Sublist p.children := by
  refine ((sublist_sampledChildren ctx p).map Prod.fst).trans ?_
  induction p.children with
  | nil => exact .slnil
  | cons child children ih =>
    cases hx : ctx.sampled? child with
    | none =>
      rw [List.filterMap_cons_none hx]
      exact ih.cons child
    | some x =>
      rw [List.filterMap_cons_some hx, List.map_cons, (of_sampled? hx).1]
      exact ih.cons_cons child

variable {l r : Nat × Point}

/-- The children of a pair are two different ones that have seen samples. -/
theorem mem_siblingPairs (h : (l, r) ∈ siblingPairs (ctx.sampledChildren p)) :
    l ∈ ctx.sampledChildren p ∧ r ∈ ctx.sampledChildren p := by
  have hsub := (sublist_siblingPairs (ctx.sampledChildren p)).subset
  have hboth (x : Nat × Point) (hx : x ∈ [l, r]) : x ∈ ctx.sampledChildren p :=
    hsub (List.mem_flatMap.mpr ⟨(l, r), h, hx⟩)
  exact ⟨hboth l (by simp), hboth r (by simp)⟩

/-- No child is in two pairs, or in one of them twice. -/
theorem nodup_siblingPairs (ctx : Context) (hchildren : p.children.Nodup) :
    ((siblingPairs (ctx.sampledChildren p)).flatMap fun x => [x.1.1, x.2.1]).Nodup := by
  have hsub := ((sublist_siblingPairs (ctx.sampledChildren p)).map Prod.fst).trans
    (sublist_numbers_sampledChildren ctx p)
  rw [List.map_flatMap] at hsub
  exact hchildren.sublist hsub

theorem mem_flatMap_contrasts {α : Type} {part : Contrast → List α} {a : α}
    (h : a ∈ (ctx.contrasts p).flatMap part) : ∃ l r,
      l ∈ ctx.sampledChildren p ∧ r ∈ ctx.sampledChildren p ∧ a ∈ part (ofChildren l r) := by
  obtain ⟨⟨l, r⟩, hpair, ha⟩ := mem_flatMap_parts.mp h
  obtain ⟨hl, hr⟩ := mem_siblingPairs hpair
  exact ⟨l, r, hl, hr, ha⟩

/-- No two implications that are built at once relate the same terms. -/
theorem pairwise_built (hchildren : p.children.Nodup) :
    ((ctx.contrasts p).flatMap implications).Pairwise fun i j => ¬i.RelatesAs j := by
  obtain ⟨hwithin, hacross⟩ := List.nodup_flatMap.mp (ctx.nodup_siblingPairs hchildren)
  unfold contrasts
  rw [List.flatMap_map, List.pairwise_flatMap]
  refine ⟨fun x hx => pairwise_implications ?_, hacross.imp fun {x y} hdisjoint i hi j hj h => ?_⟩
  · simpa using hwithin x hx
  · -- the predicate tells which child an implication is about
    have hpoint {x : (Nat × Point) × (Nat × Point)} {i : Implication}
        (hi : i ∈ (ofChildren x.1 x.2).implications) :
        i.predicate.source.point ∈ [x.1.1, x.2.1] := by
      rcases isTermOf_of_mem_implications hi with ⟨hterm, -⟩ | ⟨hterm, -⟩
      · rw [hterm.point]
        exact List.mem_cons_self
      · rw [hterm.point]
        exact List.mem_cons_of_mem _ List.mem_cons_self
    have hsame : i.predicate.source.point = j.predicate.source.point := congrArg _ h.1
    exact hdisjoint (hpoint hi) (hsame ▸ hpoint hj)

end Building

/-! ## Terms that are current -/

section Current

/-- A term at a point is current: it is about a condition, or it is the term that an invariant of a
child has now. -/
inductive IsCurrent (ctx : Context) (id : Nat) : Term → Prop
  | condition {t : Term} {child : Nat} (h : t.source = .condition child) : IsCurrent ctx id t
  | invariant {p q : Point} {child : Nat} {n : NamedSlice} {e : SliceEntry}
      (hp : ctx.points[id]? = some p) (hchild : child ∈ p.children)
      (hq : ctx.points[child]? = some q) (hn : n ∈ q.namedSlices) (he : e ∈ n.slice.entries) :
      IsCurrent ctx id (n.termOf child e)

theorem isCurrent_of_isTermOf {x : Nat × Point} {t : Term} (hp : ctx.points[id]? = some p)
    (hx : x ∈ ctx.sampledChildren p) (h : IsTermOf x t) : ctx.IsCurrent id t := by
  obtain ⟨hchild, hq⟩ := mem_sampledChildren hx
  cases h with
  | invariant hn he => exact .invariant hp hchild hq hn he
  | condition h => exact .condition (source_of_conditionTerm? h)

/-- Annotations leave terms current. -/
theorem IsCurrent.moves {t : Term} (h : ctx.IsCurrent id t)
    (k : Moves Point.Annotated ctx ctx') : ctx'.IsCurrent id t := by
  cases h with
  | condition h => exact .condition h
  | invariant hp hchild hq hn he =>
    obtain ⟨p', hp', hpp⟩ := k.point hp
    obtain ⟨q', hq', hqq⟩ := k.point hq
    have hslices := hqq.still.slices
    have hcatalog := hqq.steady.catalog
    refine .invariant hp' (hpp.steady.children ▸ hchild) hq' ?_ he
    rw [Point.namedSlices, hslices, hcatalog]
    exact hn

/-- The terms of the children are current, also after implications were built from them. -/
theorem isCurrent_built {x : Nat × Point} {t : Term} (hp : ctx.points[id]? = some p)
    (hx : x ∈ ctx.sampledChildren p) (h : IsTermOf x t) : (ctx.built id p).IsCurrent id t :=
  (isCurrent_of_isTermOf hp hx h).moves
    (moves_set annotated_refl hp (annotated_contrasted ctx p))

/-- An implication that was not there before has current terms. -/
theorem implication_isCurrent {i : Implication} (hp : ctx.points[id]? = some p)
    (h : i ∈ (ctx.contrasted p).implications) (hnew : i ∉ p.implications) :
    (ctx.built id p).IsCurrent id i.predicate ∧ (ctx.built id p).IsCurrent id i.consequent := by
  have hbuilt := (mem_implications_contrasted h).resolve_left hnew
  obtain ⟨l, r, hl, hr, hi⟩ := mem_flatMap_contrasts hbuilt
  rcases isTermOf_of_mem_implications hi with ⟨hpredicate, hconsequent⟩ | ⟨hpredicate, hconsequent⟩
  · exact ⟨isCurrent_built hp hl hpredicate, isCurrent_built hp hl hconsequent⟩
  · exact ⟨isCurrent_built hp hr hpredicate, isCurrent_built hp hr hconsequent⟩

theorem unconditional_isCurrent {t : Term} (hp : ctx.points[id]? = some p)
    (h : t ∈ (ctx.contrasted p).unconditional) (hnew : t ∉ p.unconditional) :
    (ctx.built id p).IsCurrent id t := by
  have hbuilt := (mem_unconditional_contrasted h).resolve_left hnew
  obtain ⟨l, r, hl, -, ht⟩ := mem_flatMap_contrasts hbuilt
  exact isCurrent_built hp hl (isTermOf_of_mem_shared ht)

theorem terms_contrasted {t : Term} (hp : ctx.points[id]? = some p)
    (h : t ∈ (ctx.contrasted p).holding.terms) :
    t ∈ p.holding.terms ∨ (ctx.built id p).IsCurrent id t := by
  rcases List.mem_append.mp h with h | h
  · obtain ⟨i, hi, ht⟩ := List.mem_flatMap.mp h
    by_cases hold : i ∈ p.implications
    · exact .inl (List.mem_append_left _ (List.mem_flatMap.mpr ⟨i, hold, ht⟩))
    · obtain ⟨hpredicate, hconsequent⟩ := implication_isCurrent hp hi hold
      rcases List.mem_pair.mp ht with rfl | rfl
      · exact .inr hpredicate
      · exact .inr hconsequent
  · by_cases hold : t ∈ p.unconditional
    · exact .inl (List.mem_append_right _ hold)
    · exact .inr (unconditional_isCurrent hp h hold)

end Current

/-! ## Sessions -/

section Sessions

/-- A term was current right after implications were built at its point. -/
def WasCurrent (ctx : Context) (acts : List Action) (id : Nat) (t : Term) : Prop :=
  ∃ before, before ++ [.addImplications id] <+: acts ∧
    (ctx.after (before ++ [.addImplications id])).IsCurrent id t

theorem WasCurrent.concat {acts : List Action} {t : Term} (h : ctx.WasCurrent acts id t)
    (a : Action) : ctx.WasCurrent (acts ++ [a]) id t := by
  obtain ⟨before, hbefore, hcurrent⟩ := h
  exact ⟨before, hbefore.trans (List.prefix_append _ _), hcurrent⟩

/-- What a point holds was current once. -/
theorem wasCurrent_after (hempty : ctx.points = []) (acts : List Action) {t : Term}
    (h : t ∈ ((ctx.after acts).holding id).terms) : ctx.WasCurrent acts id t := by
  induction acts using List.reverseRecOn with
  | nil =>
    unfold holding at h
    rw [after_nil, hempty] at h
    cases h
  | append_singleton acts a ih =>
    rw [after_concat] at h
    rcases holding_perform (ctx.after acts) a with hsame | ⟨other, p, rfl, hp, hbuilt⟩
    · rw [hsame] at h
      exact (ih h).concat a
    rw [hbuilt, holding_built hp] at h
    split at h
    · next hid =>
      subst hid
      rcases terms_contrasted hp h with hold | hcurrent
      · rw [← holding_of_point hp] at hold
        exact (ih hold).concat _
      · refine ⟨acts, List.prefix_rfl, ?_⟩
        rw [after_concat, hbuilt]
        exact hcurrent
    · exact (ih h).concat _

/-- **Implications are current when they are built.** After every session, if implications are
built at a point, those that it did not hold before have terms that are current, and the terms that
it did not hold unconditionally are current too. No two of the new implications relate the same
terms. Everything that the point holds was current right after implications were built there, and it
holds no implication and no unconditional term twice. -/
theorem current_addImplications (hempty : ctx.points = []) {acts : List Action} {n : Nat}
    (hexec : (addImplications id).exec (ctx.after acts) = (.ok n, ctx')) :
    ∃ p q, (ctx.after acts).points[id]? = some p ∧ ctx'.points[id]? = some q ∧
      (∀ i ∈ q.implications, i ∉ p.implications →
        ctx'.IsCurrent id i.predicate ∧ ctx'.IsCurrent id i.consequent) ∧
      (∀ t ∈ q.unconditional, t ∉ p.unconditional → ctx'.IsCurrent id t) ∧
      ((q.implications.filter (· ∉ p.implications)).Pairwise fun i j => ¬i.RelatesAs j) ∧
      (∀ t ∈ q.holding.terms, ctx.WasCurrent (acts ++ [.addImplications id]) id t) ∧
      q.holding.EachOnce := by
  have hafter : ctx.after (acts ++ [.addImplications id]) = ctx' := by
    rw [after_concat, perform, exec_discard, hexec]
  cases hp : (ctx.after acts).points[id]? with
  | none =>
    rw [exec_addImplications_none hp] at hexec
    cases hexec
  | some p =>
    rw [exec_addImplications_some hp] at hexec
    obtain rfl : ctx' = (ctx.after acts).built id p := (Prod.mk.inj hexec).2.symm
    have hq : ((ctx.after acts).built id p).points[id]? = some ((ctx.after acts).contrasted p) :=
      List.getElem?_set_self (lt_of_point hp)
    have hchildren : p.children.Nodup := by
      have hascending := (wellFormed_after hempty acts).ascending hp
      exact (List.pairwise_cons.mp hascending).2.imp Nat.ne_of_lt
    refine ⟨p, (ctx.after acts).contrasted p, rfl, hq, fun i hi => implication_isCurrent hp hi,
      fun t ht => unconditional_isCurrent hp ht, ?_, fun t ht => wasCurrent_after hempty _ ?_, ?_⟩
    · rw [implications_contrasted]
      exact (pairwise_built hchildren).sublist (p.sublist_addImplications _)
    · rw [hafter, holding_of_point hq]
      exact ht
    · have honce := eachOnce_after hempty (acts ++ [.addImplications id]) id
      rwa [hafter, holding_of_point hq] at honce

end Sessions

/-! ## A value that comes late -/

section Late

/-- A point is split by the sign of its variable, and each child takes a value three times. -/
def signs : List Action :=
  [.addPoint "P" [{ name := "x", type := .int }], .split 0 [.compare "x" .gt 0],
    .add 0 ⟨[some ⟨.int 1, true⟩]⟩ 3, .add 0 ⟨[some ⟨.int (-1), true⟩]⟩ 3]

/-- Implications are built, and then the second child takes another value. -/
def lateValue : List Action :=
  signs ++ [.addImplications 0] ++ [.add 0 ⟨[some ⟨.int 2, true⟩]⟩ 3]

def signParent (values : List Int64) (samples : Nat) (imps : List Implication) : Point where
  name := "P"
  catalog := .ofList [{ name := "x", type := .int }]
  slices := [valueSlice 0 values samples]
  samples := samples
  viewsOpen := true
  nextId := 1
  children := [1, 2]
  implications := imps

def signChild (polarity : Bool) (values : List Int64) (samples : Nat) : Point where
  name := childName "P" (.compare "x" .gt 0) polarity
  kind := .conditional 0 (.compare "x" .gt 0) polarity
  catalog := .ofList [{ name := "x", type := .int }]
  slices := [valueSlice 0 values samples]
  samples := samples
  viewsOpen := true
  nextId := 1

/-- The equivalence of the condition of a child and what the child found out. -/
def signImplication (child : Nat) (condition prover : String) (consequent : Formula)
    (text prover' : String) : Implication where
  predicate := ⟨.condition child, ⟨[], none⟩, condition, some prover, true⟩
  consequent := ⟨.invariant child 0, consequent, text, some prover', true⟩
  iff := true

def isMinusOne : Implication :=
  signImplication 1 "x <= 0" "(<= x 0)" ⟨["x"], some ⟨.oneOf, "-1"⟩⟩ "x == -1" "(EQ x -1)"

def isOne : Implication :=
  signImplication 2 "x > 0" "(> x 0)" ⟨["x"], some ⟨.oneOf, "1"⟩⟩ "x == 1" "(EQ x 1)"

def isOneOrTwo : Implication :=
  signImplication 2 "x > 0" "(> x 0)" ⟨["x"], some ⟨.oneOf, "1, 2"⟩⟩ "x one of \x7b 1, 2 \x7d"
    "(OR (EQ x 1) (EQ x 2))"

theorem points_signs : (ofValues.after signs).points =
    [signParent [-1, 1] 6 [], signChild false [-1] 3, signChild true [1] 3] := by
  decide +kernel

theorem implications_signs :
    (ofChildren (1, signChild false [-1] 3) (2, signChild true [1] 3)).implications =
      [isMinusOne, isOne] := by
  have hslices : matchSlices (signChild false [-1] 3) (signChild true [1] 3) =
      [(some ⟨["x"], valueSlice 0 [-1] 3⟩, some ⟨["x"], valueSlice 0 [1] 3⟩)] :=
    matchBy_of_keys [["x"]] (by decide +kernel) (by decide +kernel)
  unfold ofChildren
  simp only [hslices, List.map_cons, List.map_nil, ofSlices]
  rw [matchBy_of_keys [isMinusOne.consequent.formula, isOne.consequent.formula]
    (by decide +kernel) (by decide +kernel)]
  decide +kernel

theorem implications_lateValue :
    (ofChildren (1, signChild false [-1] 3) (2, signChild true [1, 2] 6)).implications =
      [isMinusOne, isOneOrTwo] := by
  have hslices : matchSlices (signChild false [-1] 3) (signChild true [1, 2] 6) =
      [(some ⟨["x"], valueSlice 0 [-1] 3⟩, some ⟨["x"], valueSlice 0 [1, 2] 6⟩)] :=
    matchBy_of_keys [["x"]] (by decide +kernel) (by decide +kernel)
  unfold ofChildren
  simp only [hslices, List.map_cons, List.map_nil, ofSlices]
  rw [matchBy_of_keys [isMinusOne.consequent.formula, isOneOrTwo.consequent.formula]
    (by decide +kernel) (by decide +kernel)]
  decide +kernel

/-- Where only two children have seen samples, they are contrasted. -/
theorem contrasted_of_pair {l r : Nat × Point} (h : siblingPairs (ctx.sampledChildren p) = [(l, r)])
    (hconfig : ctx.config.addNonimplications = false) :
    ctx.contrasted p = p.addImplications (ofChildren l r).implications := by
  unfold contrasted contrasts
  rw [h, hconfig]
  simp

theorem after_signs : ofValues.after (signs ++ [.addImplications 0]) =
    { ofValues.after signs with
      points := [signParent [-1, 1] 6 [isMinusOne, isOne], signChild false [-1] 3,
        signChild true [1] 3] } := by
  have hp : (ofValues.after signs).points[0]? = some (signParent [-1, 1] 6 []) := by
    rw [points_signs]
    rfl
  have hcontrasted : (ofValues.after signs).contrasted (signParent [-1, 1] 6 []) =
      signParent [-1, 1] 6 [isMinusOne, isOne] := by
    rw [contrasted_of_pair (l := (1, signChild false [-1] 3)) (r := (2, signChild true [1] 3))
      (by decide +kernel) (by decide +kernel), implications_signs]
    decide +kernel
  rw [after_concat, perform, exec_discard, exec_addImplications_some hp, hcontrasted, points_signs]
  rfl

theorem points_lateValue : (ofValues.after lateValue).points =
    [signParent [-1, 1, 2] 9 [isMinusOne, isOne], signChild false [-1] 3,
      signChild true [1, 2] 6] := by
  rw [lateValue, after_concat, after_signs]
  decide +kernel

theorem exec_addImplications_lateValue : ∃ ctx',
    (addImplications 0).exec (ofValues.after lateValue) = (.ok 3, ctx') ∧
      ctx'.points = [signParent [-1, 1, 2] 9 [isMinusOne, isOne, isOneOrTwo],
        signChild false [-1] 3, signChild true [1, 2] 6] := by
  have hp : (ofValues.after lateValue).points[0]? =
      some (signParent [-1, 1, 2] 9 [isMinusOne, isOne]) := by
    rw [points_lateValue]
    rfl
  have hcontrasted : (ofValues.after lateValue).contrasted
      (signParent [-1, 1, 2] 9 [isMinusOne, isOne]) =
      signParent [-1, 1, 2] 9 [isMinusOne, isOne, isOneOrTwo] := by
    have hpairs : siblingPairs ((ofValues.after lateValue).sampledChildren
        (signParent [-1, 1, 2] 9 [isMinusOne, isOne])) =
        [((1, signChild false [-1] 3), (2, signChild true [1, 2] 6))] := by
      unfold sampledChildren
      rw [points_lateValue, lateValue, after_concat, after_signs]
      decide +kernel
    have hconfig : (ofValues.after lateValue).config.addNonimplications = false := by
      rw [lateValue, after_concat, after_signs]
      decide +kernel
    rw [contrasted_of_pair hpairs hconfig, implications_lateValue]
    decide +kernel
  refine ⟨_, by rw [exec_addImplications_some hp, hcontrasted]; rfl, ?_⟩
  rw [points_lateValue]
  rfl

/-- The value that came late makes an old implication stale: its consequent is not what the child
says now. Beside it the point holds a new one, which relates the same terms. -/
theorem stale_addImplications : ∃ ctx' q,
    (addImplications 0).exec (ofValues.after lateValue) = (.ok 3, ctx') ∧
    ctx'.points[0]? = some q ∧ isOne ∈ q.implications ∧ ¬ctx'.IsCurrent 0 isOne.consequent ∧
    isOneOrTwo ∈ q.implications ∧ isOne ≠ isOneOrTwo ∧ isOne.RelatesAs isOneOrTwo := by
  obtain ⟨ctx', hexec, hpoints⟩ := exec_addImplications_lateValue
  refine ⟨ctx', signParent [-1, 1, 2] 9 [isMinusOne, isOne, isOneOrTwo], hexec, by rw [hpoints]; rfl,
    by decide +kernel, fun hcurrent => ?_, by decide +kernel, by decide +kernel, rfl, rfl⟩
  generalize hterm : isOne.consequent = t at hcurrent
  cases hcurrent with
  | condition h =>
    rw [← hterm] at h
    cases h
  | @invariant p q child n e hp hchild hq hn he =>
    obtain rfl : 2 = child := (TermSource.invariant.inj (congrArg Term.source hterm)).1
    rw [hpoints] at hq
    obtain rfl : signChild true [1, 2] 6 = q := Option.some.inj hq
    obtain rfl := List.mem_singleton.mp hn
    obtain rfl := List.mem_singleton.mp he
    exact absurd hterm (by decide +kernel)

/-- The implication that was built last is current, and the others were. -/
theorem current_addImplications_lateValue : ∃ ctx' q,
    (addImplications 0).exec (ofValues.after lateValue) = (.ok 3, ctx') ∧
    ctx'.points[0]? = some q ∧ ctx'.IsCurrent 0 isOneOrTwo.consequent ∧
    ∀ t ∈ q.holding.terms, ofValues.WasCurrent (lateValue ++ [.addImplications 0]) 0 t := by
  obtain ⟨ctx', hexec, hpoints⟩ := exec_addImplications_lateValue
  obtain ⟨p, q, hp, hq, hcurrent, -, -, hwas, -⟩ := current_addImplications rfl hexec
  refine ⟨ctx', q, hexec, hq, (hcurrent isOneOrTwo ?_ ?_).2, hwas⟩
  · rw [hpoints] at hq
    obtain rfl := Option.some.inj hq
    decide +kernel
  · rw [points_lateValue] at hp
    obtain rfl := Option.some.inj hp
    decide +kernel

end Late

end Context

end LikelyInvariants
