import LikelyInvariants.Proofs.Evolution
import LikelyInvariants.Proofs.Forest
import LikelyInvariants.Proofs.Point.Taking
import Mathlib.Data.List.Nodup
import Mathlib.Data.List.TakeWhile

/-!
# Where a sample goes

A sample that is added to a point is offered to it and, wherever a point selects it, to the children
of that point. A point that selects the sample takes it, one that does not ignores it, and one that
does not admit it stops the request. Taking a sample changes neither the tree nor what the points
select and admit. So where a sample goes is known beforehand (`Context.offered`), and whatever is
added is offered from point to point in this order, up to the first point that does not admit it
(`Context.exec_offers`): what comes before has been taken, what comes after has not.
-/

namespace LikelyInvariants

open Update

/-- Of some samples that were offered to points, those that were offered to this point and that it
selects. -/
def Point.share (id count : Nat) (offers : List (Nat × Sample)) (p : Point) :
    List (Sample × Nat) :=
  (offers.filter fun x => x.1 = id && p.selects x.2).map fun x => (x.2, count)

theorem Point.share_append (id count : Nat) (xs ys : List (Nat × Sample)) (p : Point) :
    p.share id count (xs ++ ys) = p.share id count xs ++ p.share id count ys := by
  simp [share]

/-- A sample that is offered to different points is offered to one point once at most. -/
theorem Point.share_map {ids : List Nat} (h : ids.Nodup) (id count : Nat) (s : Sample)
    (p : Point) : p.share id count (ids.map (·, s)) =
      if id ∈ ids && p.selects s then [(s, count)] else [] := by
  have hmap : p.share id count (ids.map (·, s)) =
      (ids.filter fun i => i == id && p.selects s).map fun _ => (s, count) := by
    rw [share, List.filter_map, List.map_map]
    rfl
  rw [hmap]
  by_cases hs : p.selects s
  · have hfilter : ids.filter (fun i => i == id && p.selects s) = List.replicate (ids.count id) id := by
      simp only [hs, Bool.and_true]
      exact List.filter_beq id
    rw [hfilter, h.count]
    by_cases hid : id ∈ ids <;> simp [hid, hs]
  · simp [hs]

theorem Point.selects_of_sliced {p q : Point} (h : p.Sliced q) : q.selects = p.selects := by
  obtain ⟨_, _, _, _, rfl⟩ := h
  rfl

theorem Point.share_of_sliced {p q : Point} (h : p.Sliced q) (id count : Nat)
    (offers : List (Nat × Sample)) : q.share id count offers = p.share id count offers := by
  rw [share, share, selects_of_sliced h]

namespace Context

variable {ctx ctx' : Context} {s : Sample} {count : Nat}

/-! ## Offers -/

section Offers

/-- The points that a sample is offered to that is added to a point: the point and, where a point
selects it, its children, for so many generations. -/
def offeredWithin (ctx : Context) (s : Sample) : Nat → Nat → List Nat
  | 0, _ => []
  | generations + 1, id => id :: ctx.points[id]?.elim [] fun p =>
      if p.selects s then p.children.flatMap (ctx.offeredWithin s generations) else []

/-- The points that a sample is offered to that is added to a point. -/
def offered (ctx : Context) (s : Sample) (id : Nat) : List Nat :=
  ctx.offeredWithin s ctx.points.length id

/-- All that is offered when some samples are added to points. -/
def offers (ctx : Context) (xs : List (Nat × Sample)) : List (Nat × Sample) :=
  xs.flatMap fun x => (ctx.offered x.2 x.1).map (·, x.2)

/-- Offers a sample to a point, which takes it if it selects it. -/
def offer (count : Nat) (x : Nat × Sample) : Update Context Unit := do
  let ctx ← get
  let p ← ctx.point x.1
  p.checkArity x.2
  if p.selects x.2 then atPoint x.1 (Point.take ctx.scope x.2 count)

/-- Whether a sample can be offered to a point. -/
def admits (ctx : Context) (x : Nat × Sample) : Except Error Unit :=
  match ctx.points[x.1]? with
  | none => .error .unknownPoint
  | some p => p.admits ctx.scope x.2

/-- The context after some offers were admitted. -/
def receive (ctx : Context) (count : Nat) (offers : List (Nat × Sample)) : Context :=
  { ctx with
    points := ctx.points.mapIdx fun id p => p.takingAll ctx.scope (p.share id count offers) }

theorem getElem?_receive (ctx : Context) (count : Nat) (offers : List (Nat × Sample)) (id : Nat) :
    (ctx.receive count offers).points[id]? =
      ctx.points[id]?.map fun p => p.takingAll ctx.scope (p.share id count offers) :=
  List.getElem?_mapIdx

theorem receive_nil (ctx : Context) (count : Nat) : ctx.receive count [] = ctx := by
  have hsame : (ctx.receive count []).points = ctx.points := by
    refine List.ext_getElem? fun id => ?_
    rw [getElem?_receive]
    exact Option.map_id'
  exact congrArg (fun points => { ctx with points }) hsame

/-- Offers that come one after the other. -/
theorem receive_append (ctx : Context) (count : Nat) (xs ys : List (Nat × Sample)) :
    ctx.receive count (xs ++ ys) = (ctx.receive count xs).receive count ys := by
  have hsame : (ctx.receive count (xs ++ ys)).points =
      ((ctx.receive count xs).receive count ys).points := by
    refine List.ext_getElem? fun id => ?_
    rw [getElem?_receive, getElem?_receive, getElem?_receive, Option.map_map]
    refine Option.map_congr fun p _ => ?_
    have hsliced := Point.sliced_takingAll ctx.scope (p.share id count xs) p
    rw [Function.comp, Point.share_of_sliced hsliced, Point.share_append, Point.takingAll_append]
    rfl
  exact congrArg (fun points => { ctx with points }) hsame

theorem moves_receive (ctx : Context) (count : Nat) (offers : List (Nat × Sample)) :
    Moves Point.Sliced ctx (ctx.receive count offers) := by
  refine ⟨rfl, rfl, fun id => ?_⟩
  rw [getElem?_receive]
  cases ctx.points[id]? with
  | none => exact .none
  | some p => exact .some (Point.sliced_takingAll ctx.scope _ p)

end Offers

/-! ## Taking offers -/

section Taking

/-- The points that some offers are made to have taken no sample before they opened their slices. -/
def OpensFirst (ctx : Context) (offers : List (Nat × Sample)) : Prop :=
  ∀ x ∈ offers, ∀ p, ctx.points[x.1]? = some p → p.OpensFirst

theorem OpensFirst.receive {offers : List (Nat × Sample)} (h : ctx.OpensFirst offers) (count : Nat)
    (xs : List (Nat × Sample)) : (ctx.receive count xs).OpensFirst offers := by
  intro x hx q hq
  rw [getElem?_receive] at hq
  obtain ⟨p, hp, rfl⟩ := Option.map_eq_some_iff.mp hq
  exact (h x hx p hp).takingAll _

/-- A point that is offered a sample takes it if it selects it. -/
theorem receive_one {id : Nat} {p : Point} (hp : ctx.points[id]? = some p) (s : Sample)
    (count : Nat) : ctx.receive count [(id, s)] =
      { ctx with
        points := ctx.points.set id (if p.selects s then p.taking ctx.scope s count else p) } := by
  refine congrArg (fun points => { ctx with points }) (List.ext_getElem? fun i => ?_)
  have hget := getElem?_receive ctx count [(id, s)] i
  refine hget.trans ?_
  by_cases hid : id = i
  · subst hid
    rw [List.getElem?_set_self (lt_of_point hp), hp]
    by_cases hs : p.selects s
    · simp [Point.share, hs, Point.takingAll]
    · simp [Point.share, hs, Point.takingAll]
  · rw [List.getElem?_set_ne hid]
    simp [Point.share, hid, Point.takingAll]

theorem admits_some {id : Nat} {p : Point} (hp : ctx.points[id]? = some p) (s : Sample) :
    ctx.admits (id, s) = p.admits ctx.scope s := by
  simp [admits, hp]

/-- An offer that is admitted is received, and one that is not changes nothing. -/
theorem exec_offer {x : Nat × Sample}
    (hopens : ∀ p, ctx.points[x.1]? = some p → p.OpensFirst) (count : Nat) :
    (offer count x).exec ctx =
      (ctx.admits x, if (ctx.admits x).isOk then ctx.receive count [x] else ctx) := by
  obtain ⟨id, s⟩ := x
  cases hp : ctx.points[id]? with
  | none => simp [offer, admits, point, exec_bind, hp]
  | some p =>
    have hsame : { ctx with points := ctx.points.set id p } = ctx := by
      obtain ⟨hlt, hget⟩ := List.getElem?_eq_some_iff.mp hp
      rw [← hget, List.set_getElem_self hlt]
    simp only [offer, point, exec_bind, exec_get, exec_lift, hp, admits_some hp s, receive_one hp]
    cases harity : p.checkArity s with
    | error e => simp [Point.admits, harity]
    | ok u =>
      by_cases hs : p.selects s
      · simp only [hs, if_true, exec_atPoint_some hp,
          Point.exec_take (hopens p hp) hs harity ctx.scope count]
        split
        · rfl
        · rw [hsame]
      · simp [Point.admits, harity, hs, hsame]

/-- What a point admits does not depend on what was offered before and admitted. -/
theorem admits_receive {x : Nat × Sample} (hx : (ctx.admits x).isOk) (count : Nat)
    (y : Nat × Sample) : (ctx.receive count [x]).admits y = ctx.admits y := by
  obtain ⟨id, s⟩ := x
  obtain ⟨i, t⟩ := y
  cases hp : ctx.points[id]? with
  | none => simp [admits, hp] at hx
  | some p =>
    rw [admits_some hp] at hx
    rw [receive_one hp]
    by_cases hid : id = i
    · subst hid
      rw [admits_some hp, admits_some (List.getElem?_set_self (lt_of_point hp))]
      split
      · next hs => exact Point.admits_taking hs hx t
      · rfl
    · simp only [admits, List.getElem?_set_ne hid]
      rfl

/-- Offers are made one after the other, up to the first one that is not admitted. -/
theorem exec_offers (offers : List (Nat × Sample)) (count : Nat) (h : ctx.OpensFirst offers) :
    exec (offers.forM (offer count)) ctx = (offers.forM ctx.admits,
      ctx.receive count (offers.takeWhile fun x => (ctx.admits x).isOk)) := by
  induction offers generalizing ctx with
  | nil =>
    rw [List.takeWhile_nil, receive_nil]
    rfl
  | cons x offers ih =>
    have hoffer := exec_offer (h x List.mem_cons_self) count
    show exec (offer count x >>= fun _ => offers.forM (offer count)) ctx = (do
      ctx.admits x
      offers.forM ctx.admits, _)
    cases hx : ctx.admits x with
    | error e =>
      rw [hx] at hoffer
      rw [exec_bind_error hoffer, List.takeWhile_cons, hx]
      simp [receive_nil, bind, Except.bind]
    | ok u =>
      rw [hx] at hoffer
      -- the other points answer as before, so the rest is offered as if it came first
      have hrest : (ctx.receive count [x]).OpensFirst offers :=
        OpensFirst.receive (fun y hy => h y (List.mem_cons_of_mem x hy)) count [x]
      have hsame : (ctx.receive count [x]).admits = ctx.admits :=
        funext (admits_receive (by rw [hx]; rfl) count)
      rw [exec_bind_ok hoffer]
      simp only [isOk_ok, if_true]
      rw [ih hrest, hsame, List.takeWhile_cons, hx]
      simp only [isOk_ok, if_true]
      rw [← receive_append]
      rfl

end Taking

/-! ## Adding samples -/

section Adding

/-- Where a sample goes depends on the relatives of the points and on what they select. -/
theorem offeredWithin_of_moves (h : Moves Point.Sliced ctx ctx') (s : Sample)
    (generations id : Nat) :
    ctx'.offeredWithin s generations id = ctx.offeredWithin s generations id := by
  induction generations generalizing id with
  | zero => rfl
  | succ generations ih =>
    have hid := h.points id
    rw [offeredWithin, offeredWithin, funext ih]
    revert hid
    generalize ctx.points[id]? = o, ctx'.points[id]? = o'
    intro hid
    cases hid with
    | none => rfl
    | some hsliced =>
      obtain ⟨_, _, _, _, rfl⟩ := hsliced
      rfl

theorem offered_of_moves (h : Moves Point.Sliced ctx ctx') (s : Sample) (id : Nat) :
    ctx'.offered s id = ctx.offered s id := by
  rw [offered, offered, offeredWithin_of_moves h, h.length_eq]

theorem sliced_offer (x : Nat × Sample) (count : Nat) :
    Keeps (Moves Point.Sliced) (offer count x) := by
  have hrefl := moves_refl Point.sliced_refl
  have htrans := moves_trans Point.sliced_trans
  refine keeps_bind htrans hrefl fun ctx => keeps_bind htrans (keeps_lift hrefl _) fun p => ?_
  refine keeps_bind htrans (keeps_lift hrefl _) fun _ => ?_
  split
  · exact keeps_atPoint Point.sliced_refl (Point.sliced_take ctx.scope x.2 count)
  · exact keeps_pure hrefl _

/-- What is done for some samples one by one is done by the offers it comes to. The points only
change their slices meanwhile. -/
theorem exec_forM_offers {α : Type} {f : α → Update Context PUnit} {g : α → List (Nat × Sample)}
    {count : Nat} {xs : List α}
    (h : ∀ x ∈ xs, ∀ ctx', Moves Point.Sliced ctx ctx' →
      (f x).exec ctx' = exec ((g x).forM (offer count)) ctx')
    (hmoves : Moves Point.Sliced ctx ctx') :
    exec (xs.forM f) ctx' = exec ((xs.flatMap g).forM (offer count)) ctx' := by
  induction xs generalizing ctx' with
  | nil => rfl
  | cons x xs ih =>
    have happend : ((x :: xs).flatMap g).forM (offer count) =
        ((g x).forM (offer count) >>= fun _ => (xs.flatMap g).forM (offer count)) :=
      List.forM_append
    rw [happend]
    refine exec_bind_congr (h x List.mem_cons_self _ hmoves) fun _ t ht => ?_
    have hkeeps := keeps_forM (moves_trans Point.sliced_trans) (moves_refl Point.sliced_refl) (g x)
      (fun y _ => sliced_offer y count) ctx'
    rw [ht] at hkeeps
    exact ih (fun y hy => h y (List.mem_cons_of_mem x hy))
      (moves_trans Point.sliced_trans _ _ _ hmoves hkeeps)

/-- A sample goes down the tree from offer to offer. -/
theorem exec_addWithin (generations id : Nat) (s : Sample) (count : Nat) (ctx : Context) :
    (addWithin generations id s count).exec ctx =
      exec (((ctx.offeredWithin s generations id).map (·, s)).forM (offer count)) ctx := by
  induction generations generalizing id ctx with
  | zero => rfl
  | succ generations ih =>
    cases hp : ctx.points[id]? with
    | none => simp [addWithin, offeredWithin, offer, point, exec_bind, hp]
    | some p =>
      have hstart : (addWithin (generations + 1) id s count).exec ctx =
          exec (offer count (id, s) >>= fun _ =>
            (if p.selects s then p.children else []).forM fun child =>
              addWithin generations child s count) ctx := by
        simp only [addWithin, offer, point, exec_bind, exec_get, exec_lift, hp]
        cases p.checkArity s with
        | error e => rfl
        | ok u =>
          by_cases hs : p.selects s
          · simp only [hs, if_true, exec_bind]
            rfl
          · simp [hs]
      have hoffered : ctx.offeredWithin s (generations + 1) id =
          id :: (if p.selects s then p.children else []).flatMap
            (ctx.offeredWithin s generations) := by
        simp only [offeredWithin, hp, Option.elim]
        split <;> rfl
      rw [hstart, hoffered, List.map_cons, List.map_flatMap]
      show _ = exec (offer count (id, s) >>= fun _ => List.forM _ _) ctx
      refine exec_bind_congr rfl fun _ t ht => ?_
      have hkeeps := sliced_offer (id, s) count ctx
      rw [ht] at hkeeps
      refine exec_forM_offers (fun child _ ctx' hmoves => ?_) hkeeps
      rw [ih, offeredWithin_of_moves hmoves]

theorem exec_add {id : Nat} {p : Point} (hp : ctx.points[id]? = some p) (s : Sample)
    (count : Nat) : (add id s count).exec ctx =
      exec (((ctx.offered s id).map (·, s)).forM (offer count)) ctx := by
  rw [offered, ← exec_addWithin]
  simp [add, point, exec_bind, hp]

/-- Samples are added one after the other by the offers that this comes to. -/
theorem exec_adds {xs : List (Nat × Sample)} (h : ∀ x ∈ xs, ∃ p, ctx.points[x.1]? = some p)
    (count : Nat) (hmoves : Moves Point.Sliced ctx ctx') :
    exec (xs.forM fun x => add x.1 x.2 count) ctx' =
      exec ((ctx.offers xs).forM (offer count)) ctx' := by
  refine exec_forM_offers (fun x hx ctx' hmoves => ?_) hmoves
  obtain ⟨p₀, hp₀⟩ := h x hx
  obtain ⟨p, hp, -⟩ := hmoves.point hp₀
  rw [exec_add hp, offered_of_moves hmoves]

/-- After a session the slices of a point are open before it takes a sample. -/
theorem Attained.opensFirst (h : ctx.Attained) {id : Nat} {q : Point}
    (hq : ctx.points[id]? = some q) : q.OpensFirst := by
  obtain ⟨start, acts, hempty, rfl⟩ := h
  obtain ⟨p, hfresh, hsteps⟩ := steps_after hempty acts hq
  exact hsteps.opensFirst hfresh

/-- Samples are added by making the offers this comes to, up to the first one that is not
admitted. -/
theorem Attained.exec_adds (h : ctx.Attained) {xs : List (Nat × Sample)}
    (hknown : ∀ x ∈ xs, ∃ p, ctx.points[x.1]? = some p) (count : Nat) :
    exec (xs.forM fun x => add x.1 x.2 count) ctx = ((ctx.offers xs).forM ctx.admits,
      ctx.receive count ((ctx.offers xs).takeWhile fun x => (ctx.admits x).isOk)) := by
  rw [Context.exec_adds hknown count (moves_refl Point.sliced_refl _)]
  exact exec_offers _ count fun x _ p hp => h.opensFirst hp

end Adding

/-! ## The way of a sample -/

section Reaches

/-- A sample that is added to a point gets to another: all points on the way select it. -/
inductive Reaches (ctx : Context) (s : Sample) : Nat → Nat → Prop
  | here {i : Nat} {p : Point} (hp : ctx.points[i]? = some p) (hs : p.selects s) : Reaches ctx s i i
  | down {i c d : Nat} {p : Point} (hp : ctx.points[i]? = some p) (hs : p.selects s)
      (hc : c ∈ p.children) (h : Reaches ctx s c d) : Reaches ctx s i d

theorem Reaches.snoc {i d c : Nat} {p q : Point} (h : ctx.Reaches s i d)
    (hp : ctx.points[d]? = some p) (hc : c ∈ p.children) (hq : ctx.points[c]? = some q)
    (hs : q.selects s) : ctx.Reaches s i c := by
  induction h with
  | here hi hi' => exact .down hi hi' (by rw [hp] at hi; cases hi; exact hc) (.here hq hs)
  | down hi hi' hj _ ih => exact .down hi hi' hj (ih hp)

/-- The last step on the way of a sample. -/
theorem Reaches.last {i d : Nat} (h : ctx.Reaches s i d) : ∃ q, ctx.points[d]? = some q ∧
    q.selects s ∧
    (d = i ∨ ∃ j p, ctx.Reaches s i j ∧ ctx.points[j]? = some p ∧ d ∈ p.children) := by
  induction h with
  | here hp hs => exact ⟨_, hp, hs, .inl rfl⟩
  | @down i c d p hp hs hc _ ih =>
    obtain ⟨q, hq, hs', rfl | ⟨j, r, hj, hr, hd⟩⟩ := ih
    · exact ⟨q, hq, hs', .inr ⟨i, p, .here hp hs, hp, hc⟩⟩
    · exact ⟨q, hq, hs', .inr ⟨j, r, .down hp hs hc hj, hr, hd⟩⟩

theorem mem_offeredWithin_succ {generations i d : Nat} :
    d ∈ ctx.offeredWithin s (generations + 1) i ↔ d = i ∨ ∃ p, ctx.points[i]? = some p ∧
      p.selects s ∧ ∃ c ∈ p.children, d ∈ ctx.offeredWithin s generations c := by
  rw [offeredWithin, List.mem_cons]
  cases ctx.points[i]? with
  | none => simp
  | some p => by_cases hs : p.selects s <;> simp [hs]

theorem isBelow_of_mem_offeredWithin {generations i d : Nat}
    (h : d ∈ ctx.offeredWithin s generations i) : ctx.IsBelow i d := by
  induction generations generalizing i with
  | zero => simp [offeredWithin] at h
  | succ generations ih =>
    rcases mem_offeredWithin_succ.mp h with rfl | ⟨p, hp, -, c, hc, hd⟩
    · exact .inl rfl
    · exact .inr (IsBelow.of_child hp hc (ih hd))

theorem reaches_of_mem_offeredWithin {generations i d : Nat} {q : Point}
    (h : d ∈ ctx.offeredWithin s generations i) (hq : ctx.points[d]? = some q) (hs : q.selects s) :
    ctx.Reaches s i d := by
  induction generations generalizing i with
  | zero => simp [offeredWithin] at h
  | succ generations ih =>
    rcases mem_offeredWithin_succ.mp h with rfl | ⟨p, hp, hp', c, hc, hd⟩
    · exact .here hq hs
    · exact .down hp hp' hc (ih hd)

namespace IsForest

/-- The points that a sample is offered to and that select it are those it reaches. -/
theorem mem_offered (h : ctx.IsForest) {i d : Nat} {q : Point} (hq : ctx.points[d]? = some q) :
    d ∈ ctx.offered s i ∧ q.selects s ↔ ctx.Reaches s i d := by
  refine ⟨fun ⟨hd, hs⟩ => reaches_of_mem_offeredWithin hd hq hs, fun hreach => ?_⟩
  -- every step down uses up a generation, but also a number
  have hwithin : ∀ generations, ctx.points.length ≤ generations + i →
      d ∈ ctx.offeredWithin s generations i ∧ q.selects s := by
    induction hreach with
    | @here i p hp hs =>
      intro generations hlen
      have hlt := lt_of_point hp
      obtain ⟨n, rfl⟩ : ∃ n, generations = n + 1 := ⟨generations - 1, by omega⟩
      rw [hp] at hq
      cases hq
      exact ⟨mem_offeredWithin_succ.mpr (.inl rfl), hs⟩
    | @down i c d p hp hs hc _ ih =>
      intro generations hlen
      have hlt := lt_of_point hp
      have hbelow := h.lt_of_mem_children hp hc
      obtain ⟨n, rfl⟩ : ∃ n, generations = n + 1 := ⟨generations - 1, by omega⟩
      obtain ⟨hd, hsel⟩ := ih hq n (by omega)
      exact ⟨mem_offeredWithin_succ.mpr (.inr ⟨p, hp, hs, c, hc, hd⟩), hsel⟩
  exact hwithin ctx.points.length (Nat.le_add_right _ _)

/-- No point is offered a sample twice, since no two branches meet. -/
theorem nodup_offeredWithin (h : ctx.IsForest) (s : Sample) (generations i : Nat) :
    (ctx.offeredWithin s generations i).Nodup := by
  induction generations generalizing i with
  | zero => exact List.nodup_nil
  | succ generations ih =>
    rw [offeredWithin]
    cases hp : ctx.points[i]? with
    | none => exact List.nodup_singleton i
    | some p =>
      simp only [Option.elim]
      split
      · refine List.nodup_cons.mpr ⟨fun hi => ?_, List.nodup_flatMap.mpr ⟨fun c _ => ih c, ?_⟩⟩
        · -- the point is not below its own children
          obtain ⟨c, hc, hd⟩ := List.mem_flatMap.mp hi
          have hlt := h.lt_of_mem_children hp hc
          have hle := h.le_of_isBelow (isBelow_of_mem_offeredWithin hd)
          omega
        · refine (h.nodup_children hp).imp_of_mem fun {c c'} hc hc' hne d hd hd' => hne ?_
          exact h.children_apart hp hc hc' (isBelow_of_mem_offeredWithin hd)
            (isBelow_of_mem_offeredWithin hd')
      · exact List.nodup_singleton i

theorem nodup_offered (h : ctx.IsForest) (s : Sample) (i : Nat) : (ctx.offered s i).Nodup :=
  h.nodup_offeredWithin s _ i

/-- Of what is added to some points, a point gets each sample once that is offered to it and that it
selects. -/
theorem share_offers (h : ctx.IsForest) (p : Point) (id count : Nat) (xs : List (Nat × Sample)) :
    p.share id count (ctx.offers xs) =
      (xs.filter fun x => id ∈ ctx.offered x.2 x.1 && p.selects x.2).map fun x => (x.2, count) := by
  induction xs with
  | nil => rfl
  | cons x xs ih =>
    have hoffers : ctx.offers (x :: xs) = (ctx.offered x.2 x.1).map (·, x.2) ++ ctx.offers xs :=
      List.flatMap_cons
    rw [hoffers, Point.share_append, ih, List.filter_cons,
      Point.share_map (h.nodup_offered x.2 x.1)]
    split <;> rfl

end IsForest

end Reaches

end Context

end LikelyInvariants
