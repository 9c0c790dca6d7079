import LikelyInvariants.Proofs.Family

/-!
# What points hold about their children

A point holds implications and terms that hold whatever the condition. They change only where
implications are built (`Context.holding_perform`). No implication is held twice, and of the
unconditional terms no two have the same source (`Context.eachOnce_after`).
-/

namespace LikelyInvariants

open Update Contrast

/-! ## Inserting -/

section Insertion

variable {α : Type} {skip : List α → α → Prop} [∀ held a, Decidable (skip held a)] {held l : List α}

/-- What is inserted goes to the end, in order. -/
theorem foldl_insert (skip : List α → α → Prop) [∀ held a, Decidable (skip held a)]
    (l held : List α) : ∃ added, added.Sublist l ∧
      l.foldl (fun held a => if skip held a then held else held ++ [a]) held = held ++ added := by
  induction l generalizing held with
  | nil => exact ⟨[], .slnil, by simp⟩
  | cons a l ih =>
    rw [List.foldl_cons]
    split
    · obtain ⟨added, hadded, hfold⟩ := ih held
      exact ⟨added, hadded.cons a, hfold⟩
    · obtain ⟨added, hadded, hfold⟩ := ih (held ++ [a])
      exact ⟨a :: added, hadded.cons_cons a, by rw [hfold, List.append_assoc]; rfl⟩

/-- What is not skipped is related as it should be to what is held, so it is afterwards. -/
theorem pairwise_foldl_insert {r : α → α → Prop} (h : held.Pairwise r)
    (hskip : ∀ held a, ¬skip held a → ∀ b ∈ held, r b a) :
    (l.foldl (fun held a => if skip held a then held else held ++ [a]) held).Pairwise r := by
  induction l generalizing held with
  | nil => exact h
  | cons a l ih =>
    rw [List.foldl_cons]
    split
    · exact ih h
    · next hnew =>
      refine ih (List.pairwise_append.mpr ⟨h, List.pairwise_singleton _ _, fun b hb c hc => ?_⟩)
      obtain rfl := List.mem_singleton.mp hc
      exact hskip held c hnew b hb

/-- What is skipped leaves what is held as it is. -/
theorem foldl_insert_of_skipped (skip : List α → α → Prop) [∀ held a, Decidable (skip held a)]
    (h : ∀ a ∈ l, skip held a) :
    l.foldl (fun held a => if skip held a then held else held ++ [a]) held = held := by
  induction l with
  | nil => rfl
  | cons a l ih =>
    rw [List.foldl_cons, if_pos (h a List.mem_cons_self)]
    exact ih fun b hb => h b (List.mem_cons_of_mem a hb)

/-- What is inserted would be skipped afterwards, if it would be skipped beside itself and whatever
is held besides. -/
theorem skip_foldl_insert (skip : List α → α → Prop) [∀ held a, Decidable (skip held a)]
    (hself : ∀ held a, skip (held ++ [a]) a)
    (hmore : ∀ held a b, skip held a → skip (held ++ [b]) a) {a : α} (h : skip held a ∨ a ∈ l) :
    skip (l.foldl (fun held a => if skip held a then held else held ++ [a]) held) a := by
  induction l generalizing held with
  | nil => exact h.resolve_right List.not_mem_nil
  | cons b l ih =>
    rw [List.foldl_cons]
    apply ih
    rcases h with h | h
    · left
      split
      · exact h
      · exact hmore held a b h
    rcases List.mem_cons.mp h with rfl | h
    · left
      split
      · assumption
      · exact hself held a
    · exact .inr h

/-- If nothing new passes a test, what passes it is the same as before. -/
theorem filter_foldl_insert [DecidableEq α] {test : α → Bool} (h : ∀ a ∈ l, test a → a ∈ held) :
    (l.foldl (fun held a => if a ∈ held then held else held ++ [a]) held).filter test =
      held.filter test := by
  induction l generalizing held with
  | nil => rfl
  | cons a l ih =>
    rw [List.foldl_cons]
    split
    · exact ih fun b hb => h b (List.mem_cons_of_mem a hb)
    · next hnew =>
      have hfails : test a = false := by
        cases htest : test a with
        | false => rfl
        | true => exact absurd (h a List.mem_cons_self htest) hnew
      rw [ih fun b hb htest => List.mem_append_left _ (h b (List.mem_cons_of_mem a hb) htest),
        List.filter_append]
      simp [hfails]

/-- What is inserted is added to what is held. -/
theorem mem_foldl_insert [DecidableEq α] {a : α} :
    a ∈ l.foldl (fun held a => if a ∈ held then held else held ++ [a]) held ↔
      a ∈ held ∨ a ∈ l := by
  induction l generalizing held with
  | nil => simp
  | cons b l ih =>
    rw [List.foldl_cons, ih, List.mem_cons]
    split
    · next hb =>
      constructor
      · rintro (ha | ha)
        · exact .inl ha
        · exact .inr (.inr ha)
      · rintro (ha | rfl | ha)
        · exact .inl ha
        · exact .inl hb
        · exact .inr ha
    · rw [List.mem_append, List.mem_singleton, or_assoc]

end Insertion

/-! ## What a point holds -/

/-- What a point holds about its children. -/
structure Holding where
  implications : List Implication := []
  /-- Terms that hold whatever the condition. -/
  unconditional : List Term := []

namespace Holding

def terms (h : Holding) : List Term :=
  (h.implications.flatMap fun i => [i.predicate, i.consequent]) ++ h.unconditional

/-- No implication is there twice, and of the unconditional terms no two have the same source. -/
structure EachOnce (h : Holding) : Prop where
  implications : h.implications.Nodup
  unconditional : h.unconditional.Pairwise fun t u => t.source ≠ u.source

end Holding

namespace Point

variable {p : Point}

def holding (p : Point) : Holding := ⟨p.implications, p.unconditional⟩

/-- What is new among the implications of a point comes from those that were added, in order. -/
theorem sublist_addImplications (p : Point) (imps : List Implication) :
    ((p.addImplications imps).implications.filter (· ∉ p.implications)).Sublist imps := by
  obtain ⟨added, hadded, hfold⟩ := foldl_insert (fun held i => i ∈ held) imps p.implications
  have hkept : (p.addImplications imps).implications.Sublist (p.implications ++ added) := by
    rw [← hfold]
    exact List.filter_sublist
  have hnew := hkept.filter (· ∉ p.implications)
  have hold : p.implications.filter (· ∉ p.implications) = [] := by simp
  rw [List.filter_append, hold, List.nil_append] at hnew
  exact (hnew.trans List.filter_sublist).trans hadded

theorem mem_addUnconditional {terms : List Term} {t : Term}
    (h : t ∈ (p.addUnconditional terms).unconditional) : t ∈ p.unconditional ∨ t ∈ terms := by
  obtain ⟨added, hadded, hfold⟩ :=
    foldl_insert (fun held t => held.any (·.source = t.source) = true) terms p.unconditional
  have hmem : t ∈ p.unconditional ++ added := hfold ▸ h
  rcases List.mem_append.mp hmem with hold | hnew
  · exact .inl hold
  · exact .inr (hadded.subset hnew)

theorem eachOnce_addImplications (h : p.holding.EachOnce) (imps : List Implication) :
    (p.addImplications imps).holding.EachOnce := by
  refine ⟨List.Pairwise.filter _ (pairwise_foldl_insert h.implications ?_), h.unconditional⟩
  rintro held i hnew j hj rfl
  exact hnew hj

theorem eachOnce_addUnconditional (h : p.holding.EachOnce) (terms : List Term) :
    (p.addUnconditional terms).holding.EachOnce := by
  refine ⟨h.implications, pairwise_foldl_insert h.unconditional fun held t hnew u hu hsame => ?_⟩
  exact hnew (List.any_eq_true.mpr ⟨u, hu, by simpa using hsame⟩)

end Point

namespace Context

variable {ctx ctx' : Context} {id : Nat} {p : Point}

/-! ## Building implications -/

section Building

theorem implications_contrasted (ctx : Context) (p : Point) : (ctx.contrasted p).implications =
    (p.addImplications ((ctx.contrasts p).flatMap implications)).implications := by
  unfold contrasted
  dsimp only
  split <;> rfl

theorem mem_implications_contrasted {i : Implication}
    (h : i ∈ (ctx.contrasted p).implications) :
    i ∈ p.implications ∨ i ∈ (ctx.contrasts p).flatMap implications := by
  rw [implications_contrasted] at h
  by_cases hold : i ∈ p.implications
  · exact .inl hold
  · exact .inr ((p.sublist_addImplications _).subset (List.mem_filter.mpr ⟨h, by simpa using hold⟩))

theorem mem_unconditional_contrasted {t : Term} (h : t ∈ (ctx.contrasted p).unconditional) :
    t ∈ p.unconditional ∨ t ∈ (ctx.contrasts p).flatMap shared := by
  unfold contrasted at h
  dsimp only at h
  split at h
  · exact Point.mem_addUnconditional h
  · exact .inl h

/-- The context after implications were built at a point. -/
def built (ctx : Context) (id : Nat) (p : Point) : Context :=
  { ctx with points := ctx.points.set id (ctx.contrasted p) }

theorem eachOnce_contrasted (ctx : Context) (h : p.holding.EachOnce) :
    (ctx.contrasted p).holding.EachOnce := by
  have hadded := Point.eachOnce_addImplications h ((ctx.contrasts p).flatMap implications)
  unfold contrasted
  dsimp only
  split
  · exact Point.eachOnce_addUnconditional hadded _
  · exact hadded

/-- What the point with a number holds. -/
def holding (ctx : Context) (id : Nat) : Holding := ctx.points[id]?.elim {} Point.holding

theorem holding_of_point (hp : ctx.points[id]? = some p) : ctx.holding id = p.holding := by
  rw [holding, hp]
  rfl

/-- Building implications changes what one point holds. -/
theorem holding_built (hp : ctx.points[id]? = some p) (other : Nat) :
    (ctx.built id p).holding other =
      if id = other then (ctx.contrasted p).holding else ctx.holding other := by
  unfold holding built
  dsimp only
  split
  · next hid =>
    subst hid
    rw [List.getElem?_set_self (lt_of_point hp)]
    rfl
  · next hid => rw [List.getElem?_set_ne hid]

end Building

/-! ## All other requests -/

section Requests

/-- Both points hold the same. -/
def HoldsSame (p q : Point) : Prop := q.holding = p.holding

theorem holdsSame_refl (p : Point) : HoldsSame p p := rfl

theorem holdsSame_trans (p q r : Point) (h : HoldsSame p q) (k : HoldsSame q r) : HoldsSame p r :=
  k.trans h

theorem holdsSame_onlyGrows {q : Point} (h : Point.OnlyGrows p q) : HoldsSame p q := by
  obtain ⟨_, _, _, -, rfl⟩ := h
  rfl

theorem holding_moves (k : Moves HoldsSame ctx ctx') : ctx'.holding = ctx.holding := by
  funext id
  unfold holding
  cases hp : ctx.points[id]? with
  | none =>
    have hnone := k.points id
    rw [hp] at hnone
    generalize ctx'.points[id]? = o at hnone
    cases hnone
    rfl
  | some p =>
    obtain ⟨q, hq, hsame⟩ := k.point hp
    rw [hq]
    exact hsame

theorem holding_grows {α : Type} {r : Except Error α} (k : ctx.GrowsAt id (r, ctx')) :
    ctx'.holding = ctx.holding := by
  cases k with
  | failed e => rfl
  | still a hp hgrown =>
    exact holding_moves (moves_set holdsSame_refl hp (holdsSame_onlyGrows hgrown.onlyGrows))
  | shared a hp hgrown =>
    refine (holding_moves (moves_handDown holdsSame_refl fun _ _ q _ => holdsSame_refl q)).trans ?_
    exact holding_moves (moves_set holdsSame_refl hp (holdsSame_onlyGrows hgrown.onlyGrows))

theorem holding_adds {parent : Option Nat} {new : Point} (k : ctx.Adds parent new ctx')
    (hnew : new.holding = {}) : ctx'.holding = ctx.holding := by
  funext i
  unfold holding
  cases hq : ctx'.points[i]? with
  | none =>
    cases hp : ctx.points[i]? with
    | none => rfl
    | some p =>
      obtain ⟨q, hq', -⟩ := k.kept hp
      rw [hq] at hq'
      cases hq'
  | some q =>
    rcases k.source hq with ⟨rfl, rfl⟩ | ⟨p, hp, hgains⟩
    · rw [List.getElem?_eq_none (Nat.le_refl _)]
      exact hnew
    · rw [hp]
      show q.holding = p.holding
      unfold Point.holding
      rw [hgains.implications, hgains.unconditional]

theorem holdsSame_sliced (p q : Point) (h : Point.Sliced p q) : HoldsSame p q := by
  obtain ⟨_, _, _, _, rfl⟩ := h
  rfl

theorem holdsSame_tagged (p q : Point) (h : Point.Tagged p q) : HoldsSame p q := by
  obtain ⟨_, _, _, _, rfl⟩ := h
  rfl

theorem holdsSame_perform (action : PointAction) : Keeps HoldsSame (Point.perform action) := by
  have hdiscard {α : Type} {m : Update Point α} (h : Keeps HoldsSame m) :
      Keeps HoldsSame (do let _ ← m) :=
    keeps_bind holdsSame_trans h fun _ => keeps_pure holdsSame_refl _
  cases action with
  | addVariables vars =>
    exact hdiscard fun p => holdsSame_onlyGrows (Point.grown_addVariables vars p).onlyGrows
  | createDerived rules settings =>
    exact hdiscard fun p =>
      holdsSame_onlyGrows (Point.grown_createDerived rules settings p).onlyGrows
  | _ => exact fun p => holdsSame_sliced _ _ (Point.sliced_perform rfl p)

theorem holding_split (id : Nat) (splitters : List Splitter) :
    Keeps (fun ctx ctx' : Context => ctx'.holding = ctx.holding) (split id splitters) := by
  refine keeps_split (R := fun ctx ctx' : Context => ctx'.holding = ctx.holding)
    (fun _ => rfl) (fun _ _ _ h k => k.trans h) (fun s polarity ctx => ?_) splitters
  rcases addChild_cases id s polarity ctx with ⟨e, hfail⟩ | ⟨p, ctx', -, -, hchild, hadds⟩
  · rw [hfail]
  · rw [hchild]
    exact holding_adds hadds rfl

/-- Only where implications are built does a point hold something else afterwards. -/
theorem holding_perform (ctx : Context) (a : Action) :
    ((perform a).exec ctx).2.holding = ctx.holding ∨
      ∃ id p, a = .addImplications id ∧ ctx.points[id]? = some p ∧
        ((perform a).exec ctx).2 = ctx.built id p := by
  have hchanges : Changes HoldsSame ctx a ((perform a).exec ctx).2 :=
    changes_perform_of holdsSame_sliced ctx a (fun p q h => holdsSame_tagged p q h.tagged)
      fun _ action _ => holdsSame_perform action
  generalize ((perform a).exec ctx).2 = ctx' at hchanges
  cases hchanges with
  | moved k => exact .inl (holding_moves k)
  | grown k => exact .inl (holding_grows k)
  | added vars => exact .inl (holding_adds (adds_alone ctx _) rfl)
  | split id splitters => exact .inl (holding_split id splitters ctx)
  | contrasted ha hp => exact .inr ⟨_, _, ha, hp, rfl⟩
  | @marked id p included _ hp =>
    have hsame := holdsSame_tagged _ _ (tagged_mark p (ctx.redundancyPass id p included).2.1)
    have hmoves := holding_moves (moves_set holdsSame_refl hp hsame)
    exact .inl hmoves

theorem eachOnce_after (hempty : ctx.points = []) (acts : List Action) (id : Nat) :
    ((ctx.after acts).holding id).EachOnce := by
  have hstep (ctx : Context) (a : Action) (h : ∀ id, (ctx.holding id).EachOnce) :
      ∀ id, (((perform a).exec ctx).2.holding id).EachOnce := by
    rcases holding_perform ctx a with hsame | ⟨built, p, -, hp, hbuilt⟩
    · rw [hsame]
      exact h
    · intro id
      rw [hbuilt, holding_built hp]
      split
      · exact eachOnce_contrasted ctx (holding_of_point hp ▸ h built)
      · exact h id
  have hstart (id : Nat) : (ctx.holding id).EachOnce := by
    unfold holding
    rw [hempty]
    exact ⟨.nil, .nil⟩
  exact after_induction (P := fun ctx => ∀ id, (ctx.holding id).EachOnce) hstep hstart acts id

end Requests

end Context

end LikelyInvariants
