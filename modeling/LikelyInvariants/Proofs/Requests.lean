import LikelyInvariants.Proofs.Point.Steps

/-!
# What a request changes

Most requests change the points one by one and nothing else: each point is related to what it
becomes by a relation between points (`Context.Moves`). Two kinds of requests do more. One adds
points, and one lets a point grow together with its descendants (`Context.GrowsAt`).

The lemmas here say for each request what it changes, and `Context.Changes` lists what there is.
What is proved about sessions is proved from them.
-/

namespace LikelyInvariants.Context

open Update

/-! ## Steps of one point -/

section AtPoint

variable {α : Type}

theorem point_ok {ctx : Context} {id : Nat} {p : Point} (h : ctx.point id = .ok p) :
    ctx.points[id]? = some p := by
  unfold point at h
  cases hp : ctx.points[id]? <;> simp [hp] at h
  rw [h]

theorem lt_of_point {ctx : Context} {id : Nat} {p : Point} (h : ctx.points[id]? = some p) :
    id < ctx.points.length := (List.getElem?_eq_some_iff.mp h).1

theorem exec_atPoint_none {id : Nat} {ctx : Context} (h : ctx.points[id]? = none)
    (step : Update Point α) : (atPoint id step).exec ctx = (.error .unknownPoint, ctx) := by
  simp [atPoint, point, exec_bind, h]

theorem exec_atPoint_some {id : Nat} {ctx : Context} {p : Point} (h : ctx.points[id]? = some p)
    (step : Update Point α) : (atPoint id step).exec ctx =
      ((step.exec p).1, { ctx with points := ctx.points.set id (step.exec p).2 }) := by
  simp [atPoint, point, exec_bind, h]
  rfl

end AtPoint

/-! ## Moving points -/

section Moves

variable {R S : Point → Point → Prop} {α β : Type}

/-- Each point is related to what it becomes, and the rest of the context stays as it is. -/
structure Moves (R : Point → Point → Prop) (ctx ctx' : Context) : Prop where
  scope : ctx'.scope = ctx.scope
  bridge : ctx'.bridge = ctx.bridge
  points : ∀ id : Nat, Option.Rel R ctx.points[id]? ctx'.points[id]?

theorem Moves.mono {ctx ctx' : Context} (h : Moves R ctx ctx') (hmono : ∀ p q, R p q → S p q) :
    Moves S ctx ctx' := by
  refine ⟨h.scope, h.bridge, fun id => ?_⟩
  have hid := h.points id
  revert hid
  generalize ctx.points[id]? = o, ctx'.points[id]? = o'
  intro hid
  cases hid with
  | some hpq => exact .some (hmono _ _ hpq)
  | none => exact .none

/-- What a point becomes. -/
theorem Moves.point {ctx ctx' : Context} (h : Moves R ctx ctx') {id : Nat} {p : Point}
    (hp : ctx.points[id]? = some p) : ∃ q, ctx'.points[id]? = some q ∧ R p q := by
  have hid := h.points id
  rw [hp] at hid
  generalize ctx'.points[id]? = o' at hid
  cases hid with
  | some hpq => exact ⟨_, rfl, hpq⟩

/-- Where a point comes from. -/
theorem Moves.source {ctx ctx' : Context} (h : Moves R ctx ctx') {id : Nat} {q : Point}
    (hq : ctx'.points[id]? = some q) : ∃ p, ctx.points[id]? = some p ∧ R p q := by
  have hid := h.points id
  rw [hq] at hid
  generalize ctx.points[id]? = o at hid
  cases hid with
  | some hpq => exact ⟨_, rfl, hpq⟩

theorem Moves.length_eq {ctx ctx' : Context} (h : Moves R ctx ctx') :
    ctx'.points.length = ctx.points.length := by
  have hend := h.points ctx.points.length
  have hend' := h.points ctx'.points.length
  rw [List.getElem?_eq_none (Nat.le_refl _)] at hend hend'
  generalize ho : ctx'.points[ctx.points.length]? = o at hend
  generalize ho' : ctx.points[ctx'.points.length]? = o' at hend'
  cases hend
  cases hend'
  exact Nat.le_antisymm (List.getElem?_eq_none_iff.mp ho) (List.getElem?_eq_none_iff.mp ho')

theorem Moves.symm {ctx ctx' : Context} (h : Moves R ctx ctx') (hsymm : ∀ p q, R p q → S q p) :
    Moves S ctx' ctx := by
  refine ⟨h.scope.symm, h.bridge.symm, fun id => ?_⟩
  have hid := h.points id
  revert hid
  generalize ctx.points[id]? = o, ctx'.points[id]? = o'
  intro hid
  cases hid with
  | some hpq => exact .some (hsymm _ _ hpq)
  | none => exact .none

variable (hrefl : ∀ p, R p p) (htrans : ∀ p q r, R p q → R q r → R p r)

include hrefl in
theorem moves_refl (ctx : Context) : Moves R ctx ctx := by
  refine ⟨rfl, rfl, fun id => ?_⟩
  cases ctx.points[id]? with
  | none => exact .none
  | some p => exact .some (hrefl p)

include htrans in
theorem moves_trans (ctx ctx' ctx'' : Context) (h : Moves R ctx ctx') (k : Moves R ctx' ctx'') :
    Moves R ctx ctx'' := by
  refine ⟨k.scope.trans h.scope, k.bridge.trans h.bridge, fun id => ?_⟩
  have hid := h.points id
  have kid := k.points id
  revert hid kid
  generalize ctx.points[id]? = o, ctx'.points[id]? = o', ctx''.points[id]? = o''
  intro hid kid
  cases hid with
  | none =>
    cases kid with
    | none => exact .none
  | some hpq =>
    cases kid with
    | some hqr => exact .some (htrans _ _ _ hpq hqr)

include hrefl in
theorem moves_set {ctx : Context} {id : Nat} {p q : Point} (hp : ctx.points[id]? = some p)
    (h : R p q) : Moves R ctx { ctx with points := ctx.points.set id q } := by
  refine ⟨rfl, rfl, fun other => ?_⟩
  by_cases heq : id = other
  · subst heq
    rw [List.getElem?_set_self (lt_of_point hp), hp]
    exact .some h
  · rw [List.getElem?_set_ne heq]
    exact (moves_refl hrefl ctx).points other

include hrefl in
theorem moves_atPoint {id : Nat} {step : Update Point α} {ctx : Context}
    (h : ∀ p, ctx.points[id]? = some p → R p (step.exec p).2) :
    Moves R ctx ((atPoint id step).exec ctx).2 := by
  cases hp : ctx.points[id]? with
  | none =>
    rw [exec_atPoint_none hp]
    exact moves_refl hrefl ctx
  | some p =>
    rw [exec_atPoint_some hp]
    exact moves_set hrefl hp (h p hp)

include hrefl in
theorem keeps_atPoint {id : Nat} {step : Update Point α} (h : Keeps R step) :
    Keeps (Moves R) (atPoint id step) :=
  fun _ => moves_atPoint hrefl fun p _ => h p

end Moves

/-! ## Annotations -/

section Annotations

open Point (Annotated Tagged tagged_refl)

theorem annotated_refl (p : Point) : Annotated p p := rfl

/-- What a request notes at a point besides its slices and its variables: an edge that the context
found valid, or whether the point is an object. -/
inductive Noted (ctx : Context) : Action → Point → Point → Prop
  | nothing (a : Action) (p : Point) : Noted ctx a p p
  | dataflow {source target : Nat} {transform : List (Option Nat)} {p : Point} {e : FlowEdge}
      (hp : ctx.points[source]? = some p) (he : ctx.flowEdge source target transform = .ok e) :
      Noted ctx (.addDataflow source target transform) p { p with dataflow := p.dataflow ++ [e] }
  | invflow {source target : Nat} {transform : List (Option Nat)} {p : Point} {e : FlowEdge}
      (hp : ctx.points[source]? = some p) (he : ctx.flowEdge source target transform = .ok e) :
      Noted ctx (.addInvflow source target transform) p { p with invflow := p.invflow ++ [e] }
  | object (id : Nat) (isObject : Bool) (p : Point) :
      Noted ctx (.setObject id isObject) p { p with isObject }

theorem Noted.tagged {ctx : Context} {a : Action} {p q : Point} (h : Noted ctx a p q) :
    Tagged p q := by
  cases h with
  | nothing => exact tagged_refl p
  | dataflow => exact ⟨_, p.invflow, p.redundant, p.isObject, rfl⟩
  | invflow => exact ⟨p.dataflow, _, p.redundant, p.isObject, rfl⟩
  | object => exact ⟨p.dataflow, p.invflow, p.redundant, _, rfl⟩

theorem notes_addDataflow (source target : Nat) (transform : List (Option Nat)) (ctx : Context) :
    Moves (Noted ctx (.addDataflow source target transform)) ctx
      ((addDataflow source target transform).exec ctx).2 := by
  simp only [addDataflow, exec_bind, exec_get, exec_lift]
  cases hedge : ctx.flowEdge source target transform with
  | error e => exact moves_refl (Noted.nothing _) ctx
  | ok e => exact moves_atPoint (Noted.nothing _) fun p hp => .dataflow hp hedge

theorem notes_addInvflow (source target : Nat) (transform : List (Option Nat)) (ctx : Context) :
    Moves (Noted ctx (.addInvflow source target transform)) ctx
      ((addInvflow source target transform).exec ctx).2 := by
  simp only [addInvflow, exec_bind, exec_get, exec_lift]
  cases hedge : ctx.flowEdge source target transform with
  | error e => exact moves_refl (Noted.nothing _) ctx
  | ok e => exact moves_atPoint (Noted.nothing _) fun p hp => .invflow hp hedge

theorem notes_setObject (id : Nat) (isObject : Bool) (ctx : Context) :
    Moves (Noted ctx (.setObject id isObject)) ctx ((setObject id isObject).exec ctx).2 :=
  moves_atPoint (Noted.nothing _) fun p _ => .object id isObject p

theorem notes_addController (controlled controller : Nat) (ctx : Context) :
    Moves (Noted ctx (.addController controlled controller)) ctx
      ((addController controlled controller).exec ctx).2 := by
  have hrefl : Moves (Noted ctx (.addController controlled controller)) ctx ctx :=
    moves_refl (Noted.nothing _) ctx
  simp only [addController, exec_bind, exec_get, exec_lift]
  cases ctx.point controlled with
  | error e => exact hrefl
  | ok p =>
    cases ctx.point controller with
    | error e => exact hrefl
    | ok q =>
      simp only
      split
      · exact ⟨rfl, rfl, hrefl.points⟩
      · exact hrefl

theorem exec_addImplications_none {id : Nat} {ctx : Context} (h : ctx.points[id]? = none) :
    (addImplications id).exec ctx = (.error .unknownPoint, ctx) := by
  simp [addImplications, point, exec_bind, h]

/-- What the pairs of children of a point agree and differ on. -/
def contrasts (ctx : Context) (p : Point) : List Contrast :=
  (siblingPairs (ctx.sampledChildren p)).map fun (l, r) => Contrast.ofChildren l r

/-- The point with the implications from its children, and with what these share if that is asked
for. -/
def contrasted (ctx : Context) (p : Point) : Point :=
  let q := p.addImplications ((ctx.contrasts p).flatMap Contrast.implications)
  if ctx.config.addNonimplications then
    q.addUnconditional ((ctx.contrasts p).flatMap Contrast.shared)
  else q

theorem exec_addImplications_some {id : Nat} {ctx : Context} {p : Point}
    (h : ctx.points[id]? = some p) :
    (addImplications id).exec ctx = (.ok (ctx.contrasted p).implications.length,
      { ctx with points := ctx.points.set id (ctx.contrasted p) }) := by
  have hpoint : ctx.point id = .ok p := by simp [point, h]
  simp only [addImplications, exec_bind, exec_get, exec_lift, hpoint, exec_atPoint_some h, exec_set,
    exec_pure]
  rfl

theorem annotated_contrasted (ctx : Context) (p : Point) : Annotated p (ctx.contrasted p) := by
  unfold contrasted
  dsimp only
  split <;> rfl

theorem annotates_addImplications (id : Nat) (ctx : Context) :
    Moves Annotated ctx ((addImplications id).exec ctx).2 := by
  cases hp : ctx.points[id]? with
  | none =>
    rw [exec_addImplications_none hp]
    exact moves_refl annotated_refl ctx
  | some p =>
    rw [exec_addImplications_some hp]
    exact moves_set annotated_refl hp (annotated_contrasted ctx p)

theorem exec_markImplied_none {id : Nat} {ctx : Context} (h : ctx.points[id]? = none)
    (included : Finding → Bool) :
    (markImplied id included).exec ctx = (.error .unknownPoint, ctx) := by
  simp [markImplied, point, exec_bind, h]

/-- The pass over the candidates of a point. -/
def redundancyPass (ctx : Context) (id : Nat) (p : Point) (included : Finding → Bool) :
    Outcome × List Candidate × Bridge :=
  Redundancy.pass ctx.bridge (ctx.background id included) (p.candidates id included)

/-- The point gets marks, and only the bridge changes besides. -/
theorem exec_markImplied_some {id : Nat} {ctx : Context} {p : Point} (h : ctx.points[id]? = some p)
    (included : Finding → Bool) : (markImplied id included).exec ctx =
      let (outcome, marked, bridge) := ctx.redundancyPass id p included
      (.ok { examined := (p.candidates id included).length, redundant := marked.length, outcome },
        { ctx with points := ctx.points.set id (p.mark marked), bridge }) := by
  simp [markImplied, point, redundancyPass, exec_bind, h]

theorem tagged_mark (p : Point) (marked : List Candidate) : Tagged p (p.mark marked) :=
  ⟨p.dataflow, p.invflow, _, p.isObject, rfl⟩

end Annotations

/-! ## New points -/

section Adding

/-- A point is added unless its name is taken. -/
theorem addPoint_cases (new : Point) (ctx : Context) :
    (∃ e, (addPoint new).exec ctx = (.error e, ctx)) ∨
      (∀ {i : Nat} {p : Point}, ctx.points[i]? = some p → p.name ≠ new.name) ∧
        (addPoint new).exec ctx =
          (.ok ctx.points.length, { ctx with points := ctx.points ++ [new] }) := by
  simp only [addPoint, exec_bind, exec_get]
  by_cases htaken : (ctx.lookup? new.name).isSome
  · exact .inl ⟨.duplicatePoint new.name, by simp [htaken]⟩
  · refine .inr ⟨fun {i p} hp hname => htaken ?_, by simp [htaken]⟩
    unfold lookup?
    rw [List.findIdx?_isSome, List.any_eq_true]
    exact ⟨p, List.mem_of_getElem? hp, by simpa using hname⟩

/-- What every new child keeps, splitting keeps. -/
theorem keeps_split {R : Context → Context → Prop} (hrefl : ∀ ctx, R ctx ctx)
    (htrans : ∀ a b c, R a b → R b c → R a c) {id : Nat}
    (hchild : ∀ s polarity, Keeps R (addChild id s polarity)) (splitters : List Splitter) :
    Keeps R (split id splitters) := by
  refine keeps_bind htrans (keeps_mapM htrans hrefl _ fun s _ => ?_) fun _ => keeps_pure hrefl _
  refine keeps_bind htrans hrefl fun ctx => keeps_bind htrans (keeps_lift hrefl _) fun p => ?_
  split
  · refine keeps_bind htrans (hchild s false) fun _ => ?_
    exact keeps_bind htrans (hchild s true) fun _ => keeps_pure hrefl _
  · exact keeps_pure hrefl _

end Adding

/-! ## Feeding and slices -/

section Feeding

open Point (Sliced sliced_refl sliced_trans)

variable {R : Point → Point → Prop} (hrefl : ∀ p, R p p) (htrans : ∀ p q r, R p q → R q r → R p r)
  (htake : ∀ (scope : Scope) (s : Sample) (count : Nat), Keeps R (Point.take scope s count))

include hrefl htrans htake

/-- Whatever points a sample is offered to, all that happens is that some of them take it. -/
theorem moves_addWithin (generations id : Nat) (s : Sample) (count : Nat) :
    Keeps (Moves R) (addWithin generations id s count) := by
  have hrefl' := moves_refl hrefl
  have htrans' := moves_trans htrans
  induction generations generalizing id with
  | zero => exact keeps_pure hrefl' _
  | succ generations ih =>
    refine keeps_bind htrans' hrefl' fun ctx => ?_
    refine keeps_bind htrans' (keeps_lift hrefl' _) fun p => ?_
    refine keeps_bind htrans' (keeps_lift hrefl' _) fun _ => ?_
    split
    · refine keeps_bind htrans' ?_ fun _ => keeps_forM htrans' hrefl' _ fun child _ => ih child
      exact keeps_atPoint hrefl (htake ctx.scope s count)
    · exact keeps_pure hrefl' _

theorem moves_add (id : Nat) (s : Sample) (count : Nat) :
    Keeps (Moves R) (add id s count) := by
  have hrefl' := moves_refl hrefl
  have htrans' := moves_trans htrans
  refine keeps_bind htrans' hrefl' fun ctx => keeps_bind htrans' (keeps_lift hrefl' _) fun _ => ?_
  exact moves_addWithin hrefl htrans htake _ id s count

theorem moves_addAndFlow (id : Nat) (s : Sample) (count : Nat) :
    Keeps (Moves R) (addAndFlow id s count) := by
  have hrefl' := moves_refl hrefl
  have htrans' := moves_trans htrans
  refine keeps_bind htrans' (moves_add hrefl htrans htake id s count) fun _ => ?_
  refine keeps_bind htrans' hrefl' fun ctx => ?_
  refine keeps_bind htrans' (keeps_lift hrefl' _) fun p => ?_
  refine keeps_bind htrans' (keeps_mapM htrans' hrefl' _ fun e _ => ?_) fun flows => ?_
  · exact keeps_bind htrans' (keeps_lift hrefl' _) fun q => keeps_pure hrefl' _
  · exact keeps_forM htrans' hrefl' _ fun x _ => moves_add hrefl htrans htake x.1 x.2 count

theorem moves_observe (id : Nat) (raw : Sample) (count : Nat) :
    Keeps (Moves R) (observe id raw count) := by
  have hrefl' := moves_refl hrefl
  have htrans' := moves_trans htrans
  refine keeps_bind htrans' hrefl' fun ctx => ?_
  refine keeps_bind htrans' (keeps_lift hrefl' _) fun p => ?_
  refine keeps_bind htrans' (keeps_lift hrefl' _) fun s => ?_
  exact moves_addAndFlow hrefl htrans htake id s count

omit hrefl htrans htake

theorem sliced_add (id : Nat) (s : Sample) (count : Nat) :
    Keeps (Moves Sliced) (add id s count) :=
  moves_add sliced_refl sliced_trans Point.sliced_take id s count

/-- Opening the slices of a point is a request to the point, with the scope of the context. -/
theorem exec_openViews (id min limit : Nat) (ctx : Context) :
    (openViews id min limit).exec ctx = (atPoint id (ctx.scope.openViews min limit)).exec ctx := by
  simp only [openViews, exec_bind, exec_get]
  rfl

theorem exec_perform_openViews (id min limit : Nat) (ctx : Context) :
    (perform (.openViews id min limit)).exec ctx =
      (atPoint id (Point.perform (.openViews ctx.scope min limit))).exec ctx := by
  rw [perform, exec_bind, exec_openViews]
  cases hp : ctx.points[id]? with
  | none => rw [exec_atPoint_none hp, exec_atPoint_none hp]
  | some p =>
    rw [exec_atPoint_some hp, exec_atPoint_some hp, Point.perform, exec_bind]
    rcases (ctx.scope.openViews min limit).exec p with ⟨e | n, q⟩ <;> rfl

end Feeding

/-! ## Growth -/

section Growth

/-- Points that may take over more variables. -/
def MayFollow (ctx : Context) (ids : List Nat) : Prop :=
  ∀ id ∈ ids, ∃ p : Point, ctx.points[id]? = some p ∧ p.checkFollows = .ok ()

/-- The context with the variables of a point at some points. -/
def handDown (ctx : Context) (p : Point) (ids : List Nat) : Context :=
  { ctx with points := ctx.points.mapIdx fun i q => if i ∈ ids then p.inherit q else q }

theorem getElem?_handDown (ctx : Context) (p : Point) (ids : List Nat) (i : Nat) :
    (ctx.handDown p ids).points[i]? =
      if i ∈ ids then ctx.points[i]?.map p.inherit else ctx.points[i]? := by
  rw [handDown, List.getElem?_mapIdx]
  split <;> simp

theorem moves_handDown {R : Point → Point → Prop} (hrefl : ∀ p, R p p) {ctx : Context} {p : Point}
    {ids : List Nat} (h : ∀ i ∈ ids, ∀ q, ctx.points[i]? = some q → R q (p.inherit q)) :
    Moves R ctx (ctx.handDown p ids) := by
  refine ⟨rfl, rfl, fun i => ?_⟩
  rw [getElem?_handDown]
  cases hq : ctx.points[i]? with
  | none => simp
  | some q =>
    by_cases hi : i ∈ ids
    · rw [if_pos hi]
      exact .some (h i hi q hq)
    · rw [if_neg hi]
      exact .some (hrefl q)

/-- Points that may take over variables keep that when one of them does, or when one grows. -/
theorem MayFollow.set {ctx : Context} {ids : List Nat} (h : ctx.MayFollow ids) {id : Nat}
    {p q : Point} (hp : ctx.points[id]? = some p) (hq : q.checkFollows = p.checkFollows) :
    ({ ctx with points := ctx.points.set id q } : Context).MayFollow ids := by
  intro i hi
  obtain ⟨r, hr, hfollows⟩ := h i hi
  by_cases heq : id = i
  · subst heq
    rw [hp] at hr
    cases hr
    exact ⟨q, List.getElem?_set_self (lt_of_point hp), hq.trans hfollows⟩
  · exact ⟨r, (List.getElem?_set_ne heq).trans hr, hfollows⟩

/-- Points that may take over the variables of another do. -/
theorem exec_follow (p : Point) (ids : List Nat) {ctx : Context} (h : ctx.MayFollow ids) :
    exec (ids.forM fun child => atPoint child p.follow) ctx = (.ok ⟨⟩, ctx.handDown p ids) := by
  induction ids generalizing ctx with
  | nil =>
    have hsame : ctx.points.mapIdx (fun i q => if i ∈ [] then p.inherit q else q) = ctx.points :=
      List.ext_getElem? fun i => by simp
    rw [handDown, hsame]
    rfl
  | cons id ids ih =>
    obtain ⟨q, hq, hfollows⟩ := h id List.mem_cons_self
    have hlt := lt_of_point hq
    have hstep := exec_atPoint_some hq p.follow
    have hfollow : p.follow.exec q = (.ok (), p.inherit q) := by
      simp [Point.follow, exec_bind, hfollows]
    have hrest : ({ ctx with points := ctx.points.set id (p.inherit q) } : Context).MayFollow ids :=
      MayFollow.set (fun i hi => h i (List.mem_cons_of_mem id hi)) hq rfl
    rw [hfollow] at hstep
    show exec (atPoint id p.follow >>= fun _ => ids.forM _) ctx = _
    rw [exec_bind_ok hstep, ih hrest]
    refine congrArg (Prod.mk _) (congrArg (fun points => { ctx with points }) ?_)
    refine List.ext_getElem? fun i => ?_
    have hleft := getElem?_handDown { ctx with points := ctx.points.set id (p.inherit q) } p ids i
    have hright := getElem?_handDown ctx p (id :: ids) i
    refine hleft.trans (Eq.trans ?_ hright.symm)
    by_cases hi : id = i
    · subst hi
      rw [if_pos List.mem_cons_self, List.getElem?_set_self hlt, hq]
      split <;> rfl
    · simp only [List.getElem?_set_ne hi, List.mem_cons, Ne.symm hi, false_or]

theorem exec_shareVariables {ctx : Context} {id : Nat} {p : Point} (hp : ctx.points[id]? = some p)
    (h : ctx.MayFollow (ctx.descendants id)) :
    (shareVariables id).exec ctx = (.ok ⟨⟩, ctx.handDown p (ctx.descendants id)) := by
  simp only [shareVariables, point, exec_bind, exec_get, exec_lift, hp]
  exact exec_follow p _ h

/-- The context after a point got variables and gave them to its descendants. -/
def spread (ctx : Context) (id : Nat) (q : Point) : Context :=
  ({ ctx with points := ctx.points.set id q } : Context).handDown q (ctx.descendants id)

/-- A point grows with its descendants, all of which may follow, or not at all. A request that
fails changes nothing. -/
inductive GrowsAt (ctx : Context) (id : Nat) {α : Type} : Except Error α × Context → Prop
  | failed (e : Error) : GrowsAt ctx id (.error e, ctx)
  | still {p q : Point} (a : α) (hp : ctx.points[id]? = some p) (h : p.Grown q) (hq : p.Steady q) :
      GrowsAt ctx id (.ok a, { ctx with points := ctx.points.set id q })
  | shared {p q : Point} (a : α) (hp : ctx.points[id]? = some p) (h : p.Grown q)
      (hfollow : ctx.MayFollow (ctx.descendants id)) : GrowsAt ctx id (.ok a, ctx.spread id q)

theorem forM_ok {α : Type} {f : α → Except Error PUnit} :
    ∀ {l : List α} {u : PUnit}, l.forM f = .ok u → ∀ a ∈ l, f a = .ok ⟨⟩
  | [], _, _, _, ha => by simp at ha
  | b :: l, u, h, a, ha => by
    have hcons : (f b >>= fun _ => l.forM f) = .ok u := h
    cases hb : f b with
    | error e => simp [hb, bind, Except.bind] at hcons
    | ok v =>
      rcases List.mem_cons.mp ha with rfl | ha
      · exact hb
      · exact forM_ok (by simpa [hb, bind, Except.bind] using hcons) a ha

theorem checkDescendants_ok {ctx : Context} {id : Nat} {u : Unit}
    (h : ctx.checkDescendants id = .ok u) : ctx.MayFollow (ctx.descendants id) := by
  intro child hchild
  unfold checkDescendants at h
  cases hpoint : ctx.point id with
  | error e => simp [hpoint, bind, Except.bind] at h
  | ok p =>
    simp only [hpoint, bind, Except.bind] at h
    have hfollows := forM_ok h child hchild
    cases hq : ctx.point child with
    | error e => simp [hq] at hfollows
    | ok q => exact ⟨q, point_ok hq, by simpa [hq] using hfollows⟩

/-- Descendants depend only on who is whose child. -/
theorem descendantsWithin_congr {ctx ctx' : Context}
    (h : ∀ id : Nat,
      ctx'.points[id]?.elim [] Point.children = ctx.points[id]?.elim [] Point.children)
    (generations id : Nat) :
    ctx'.descendantsWithin generations id = ctx.descendantsWithin generations id := by
  induction generations generalizing id with
  | zero => rfl
  | succ generations ih =>
    rw [descendantsWithin, descendantsWithin, h]
    simp only [ih]

theorem descendants_set {ctx : Context} {id : Nat} {p q : Point} (hp : ctx.points[id]? = some p)
    (h : q.children = p.children) (other : Nat) :
    ({ ctx with points := ctx.points.set id q } : Context).descendants other =
      ctx.descendants other := by
  unfold descendants
  rw [List.length_set]
  refine descendantsWithin_congr (fun i => ?_) _ _
  by_cases heq : id = i
  · subst heq
    have hlt : id < ctx.points.length := (List.getElem?_eq_some_iff.mp hp).1
    simp [List.getElem?_set_self hlt, hp, h]
  · rw [List.getElem?_set_ne heq]

/-- A point grows by a step of its own, and if there is more then, its descendants follow. -/
theorem growsAt_bind {α : Type} {id : Nat} {step : Update Point α} {k : α → Update Context α}
    {ctx : Context} (more : α → Prop) [DecidablePred more]
    (hk : ∀ a, k a = do
      if more a then shareVariables id
      return a)
    (hstep : ∀ p, ctx.points[id]? = some p → (∃ e, step.exec p = (.error e, p)) ∨
      ∃ a q, step.exec p = (.ok a, q) ∧ p.Grown q ∧
        (more a → ctx.MayFollow (ctx.descendants id)) ∧ (¬more a → p.Steady q)) :
    ctx.GrowsAt id ((atPoint id step >>= k).exec ctx) := by
  cases hp : ctx.points[id]? with
  | none =>
    rw [exec_bind_error (exec_atPoint_none hp step)]
    exact .failed _
  | some p =>
    have hat := exec_atPoint_some hp step
    rcases hstep p hp with ⟨e, hexec⟩ | ⟨a, q, hexec, hgrown, hfollow, hsteady⟩ <;>
      rw [hexec] at hat
    · obtain ⟨hlt, hget⟩ := List.getElem?_eq_some_iff.mp hp
      have hsame : ctx.points.set id p = ctx.points := hget ▸ List.set_getElem_self hlt
      rw [exec_bind_error hat, hsame]
      exact .failed e
    · rw [exec_bind_ok hat, hk]
      by_cases hmore : more a
      · have hp' : ({ ctx with points := ctx.points.set id q } : Context).points[id]? = some q :=
          List.getElem?_set_self (lt_of_point hp)
        have hset := (hfollow hmore).set hp hgrown.onlyGrows.checkFollows
        have hsame := descendants_set hp hgrown.children id
        have hshare := exec_shareVariables hp' (hsame ▸ hset)
        rw [hsame] at hshare
        rw [if_pos hmore, exec_bind_ok hshare]
        exact .shared a hp hgrown (hfollow hmore)
      · rw [if_neg hmore]
        exact .still a hp hgrown (hsteady hmore)

theorem growsAt_addVariables_bind {id : Nat} {vars : List Declaration} {ctx : Context}
    {k : Nat × Nat → Update Context (Nat × Nat)}
    (hk : ∀ first limit, k (first, limit) = do
      if first < limit then shareVariables id
      return (first, limit))
    (hfollow : vars ≠ [] → ctx.MayFollow (ctx.descendants id)) :
    ctx.GrowsAt id ((atPoint id (Point.addVariables vars) >>= k).exec ctx) := by
  refine growsAt_bind (fun r => r.1 < r.2) (fun r => hk r.1 r.2) fun p _ => ?_
  rcases Point.addVariables_cases vars p with hfail | ⟨hgrown, hexec⟩
  · exact .inl hfail
  refine .inr ⟨_, _, hexec, hgrown, fun hmore => hfollow ?_, fun hsame => ?_⟩
  · rintro rfl
    exact absurd hmore (Nat.lt_irrefl _)
  · have hsize := Catalog.size_append p.catalog vars
    exact hgrown.steady (by simp only [Nat.not_lt] at hsame ⊢; omega)

theorem growsAt_addVariables (id : Nat) (vars : List Declaration) (ctx : Context) :
    ctx.GrowsAt id ((addVariables id vars).exec ctx) := by
  unfold addVariables
  by_cases hvars : vars = []
  · simp only [hvars, List.isEmpty_nil, Bool.not_true, Bool.false_eq_true, if_false]
    exact growsAt_addVariables_bind (fun _ _ => rfl) fun hne => absurd rfl hne
  · simp only [List.isEmpty_eq_false_iff.mpr hvars, Bool.not_false, if_true, exec_bind, exec_get,
      exec_lift]
    cases hcheck : ctx.checkDescendants id with
    | error e => exact .failed e
    | ok u =>
      dsimp only
      rw [← exec_bind]
      exact growsAt_addVariables_bind (fun _ _ => rfl) fun _ => checkDescendants_ok hcheck

theorem growsAt_createDerived (id : Nat) (ctx : Context) :
    ctx.GrowsAt id ((createDerived id).exec ctx) := by
  simp only [createDerived, exec_bind, exec_get, exec_lift]
  cases hpoint : ctx.point id with
  | error e => exact .failed e
  | ok p =>
    simp only
    cases hpass : p.derivePass ctx.rules ctx.deriveSettings p.derivedThrough p.catalog.size with
    | error e => exact .failed e
    | ok pending =>
      have hderive (hfollow : pending ≠ [] → ctx.MayFollow (ctx.descendants id)) : ctx.GrowsAt id
          (exec (do
            let added ← atPoint id (Point.createDerived ctx.rules ctx.deriveSettings)
            if added > 0 then shareVariables id
            return added) ctx) := by
        refine growsAt_bind (· > 0) (fun _ => rfl) fun r hr => ?_
        obtain rfl : r = p := by simpa [point_ok hpoint] using hr.symm
        rcases Point.createDerived_cases ctx.rules ctx.deriveSettings r with
          hfail | ⟨q, hgrown, hexec⟩
        · exact .inl hfail
        refine .inr ⟨_, q, hexec, hgrown, fun hmore => hfollow ?_, fun hsame => ?_⟩
        · rintro rfl
          have hnone := Point.createDerived_nil hpass hexec
          omega
        · exact hgrown.steady (by omega)
      simp only
      by_cases hpending : pending = []
      · simpa [hpending] using hderive fun hne => absurd hpending hne
      · simp only [List.isEmpty_eq_false_iff.mpr hpending]
        cases hcheck : ctx.checkDescendants id with
        | error e => simpa [exec_bind, hcheck] using GrowsAt.failed e
        | ok u =>
          have hfollow := checkDescendants_ok hcheck
          simpa [exec_bind, hcheck] using hderive fun _ => hfollow

end Growth

/-! ## All requests -/

section Changes

open Point (Sliced sliced_refl sliced_trans Akin)

variable {R : Point → Point → Prop}

/-- What a request does to a context, and by what relation it moves points one by one. -/
inductive Changes (R : Point → Point → Prop) (ctx : Context) (a : Action) : Context → Prop
  | moved {ctx' : Context} (h : Moves R ctx ctx') : Changes R ctx a ctx'
  | grown {id : Nat} {α : Type} {r : Except Error α} {ctx' : Context}
      (h : ctx.GrowsAt id (r, ctx')) : Changes R ctx a ctx'
  | added {name : String} (vars : List Declaration)
      (hfree : ∀ {i : Nat} {p : Point}, ctx.points[i]? = some p → p.name ≠ name) :
      Changes R ctx a { ctx with points := ctx.points ++ [.ofVariables name vars] }
  | split (id : Nat) (splitters : List Splitter) :
      Changes R ctx a ((Context.split id splitters).exec ctx).2
  | contrasted {id : Nat} {p : Point} (ha : a = .addImplications id)
      (hp : ctx.points[id]? = some p) :
      Changes R ctx a { ctx with points := ctx.points.set id (ctx.contrasted p) }
  | marked {id : Nat} {p : Point} {included : Finding → Bool} (ha : a = .markImplied id included)
      (hp : ctx.points[id]? = some p) :
      Changes R ctx a
        { ctx with
          points := ctx.points.set id (p.mark (ctx.redundancyPass id p included).2.1)
          bridge := (ctx.redundancyPass id p included).2.2 }

/-- What moves points one by one, and is not noted, is a sample that some of them take or a request
to one of them. Requests to a point past the context move it in their own way. -/
theorem changes_perform_by {S : Point → Point → Prop} (hrefl : ∀ p, S p p)
    (htrans : ∀ p q r, S p q → S q r → S p r)
    (htake : ∀ (scope : Scope) (s : Sample) (count : Nat), Keeps S (Point.take scope s count))
    (hopen : ∀ (scope : Scope) (min limit : Nat),
      Keeps S (Point.perform (.openViews scope min limit)))
    (hmono : ∀ p q, S p q → R p q) (ctx : Context) (a : Action)
    (hnoted : ∀ p q, Noted ctx a p q → R p q)
    (hat : ∀ id action, a = .atPoint id action → Keeps R (Point.perform action)) :
    Changes R ctx a ((perform a).exec ctx).2 := by
  have hsame (p : Point) : R p p := hmono p p (hrefl p)
  have hfed {ctx' : Context} (h : Moves S ctx ctx') : Changes R ctx a ctx' := .moved (h.mono hmono)
  cases a with
  | addPoint name vars =>
    rw [perform, exec_discard]
    rcases addPoint_cases (.ofVariables name vars) ctx with ⟨e, hfail⟩ | ⟨hfree, hadd⟩
    · rw [hfail]
      exact .moved (moves_refl hsame ctx)
    · rw [hadd]
      exact .added vars hfree
  | addVariables id vars =>
    rw [perform, exec_discard]
    exact .grown (growsAt_addVariables id vars ctx)
  | createDerived id =>
    rw [perform, exec_discard]
    exact .grown (growsAt_createDerived id ctx)
  | openViews id min limit =>
    rw [exec_perform_openViews]
    exact hfed (keeps_atPoint hrefl (hopen ctx.scope min limit) ctx)
  | split id splitters =>
    rw [perform, exec_discard]
    exact .split id splitters
  | addDataflow source target transform =>
    exact .moved ((notes_addDataflow source target transform ctx).mono hnoted)
  | addInvflow source target transform =>
    exact .moved ((notes_addInvflow source target transform ctx).mono hnoted)
  | addController controlled controller =>
    exact .moved ((notes_addController controlled controller ctx).mono hnoted)
  | add id s count => exact hfed (moves_add hrefl htrans htake id s count ctx)
  | addAndFlow id s count => exact hfed (moves_addAndFlow hrefl htrans htake id s count ctx)
  | observe id raw count => exact hfed (moves_observe hrefl htrans htake id raw count ctx)
  | addImplications id =>
    rw [perform, exec_discard]
    cases hp : ctx.points[id]? with
    | none =>
      rw [exec_addImplications_none hp]
      exact .moved (moves_refl hsame ctx)
    | some p =>
      rw [exec_addImplications_some hp]
      exact .contrasted rfl hp
  | markImplied id included =>
    rw [perform, exec_discard]
    cases hp : ctx.points[id]? with
    | none =>
      rw [exec_markImplied_none hp]
      exact .moved (moves_refl hsame ctx)
    | some p =>
      rw [exec_markImplied_some hp]
      exact .marked rfl hp
  | setObject id isObject => exact .moved ((notes_setObject id isObject ctx).mono hnoted)
  | atPoint id action => exact .moved (keeps_atPoint hsame (hat id action rfl) ctx)

/-- Whatever moves points one by one is about slices or is noted. -/
theorem changes_perform_of (hsliced : ∀ p q, Sliced p q → R p q) (ctx : Context) (a : Action)
    (hnoted : ∀ p q, Noted ctx a p q → R p q)
    (hat : ∀ id action, a = .atPoint id action → Keeps R (Point.perform action)) :
    Changes R ctx a ((perform a).exec ctx).2 :=
  changes_perform_by sliced_refl sliced_trans Point.sliced_take
    (fun _ _ _ => Point.sliced_perform rfl) hsliced ctx a hnoted hat

theorem changes_perform (ctx : Context) (a : Action) :
    Changes Akin ctx a ((perform a).exec ctx).2 :=
  changes_perform_of (fun _ _ h => h.steady.akin) ctx a (fun _ _ h => h.tagged.steady.akin)
    fun _ action _ => Point.akin_perform action

end Changes

end LikelyInvariants.Context
