import LikelyInvariants.Proofs.Family
import Mathlib.Data.List.ReduceOption

/-!
# Edges

An edge maps the variables of its point to variables of another. When it is added, the context sees
to it that every variable of the point is accounted for and that the other point has those it is
mapped to. Both stay true: a point with edges gets no more variables, whether of its own or from its
parent, and every other point keeps those it has (`Context.routed_after`). So a sample can be mapped
along an edge at any time. What arrives has a slot for each variable of the other point that needs
one (`FlowEdge.size_carry`), filled from the last variable that is mapped to it
(`FlowEdge.slots_carry_of_last`).
-/

namespace LikelyInvariants

open Update

/-- An edge maps every variable of one catalog, to variables of the other. -/
structure FlowEdge.Fits (e : FlowEdge) (source target : Catalog) : Prop where
  length : e.transform.length = source.size
  targets : ∀ t, some t ∈ e.transform → t < target.size

theorem FlowEdge.Fits.mono {e : FlowEdge} {source target target' : Catalog}
    (h : e.Fits source target) (hsize : target.size ≤ target'.size) : e.Fits source target' :=
  ⟨h.length, fun t ht => Nat.lt_of_lt_of_le (h.targets t ht) hsize⟩

namespace Context

variable {ctx ctx' : Context}

theorem flowEdge_ok {source target : Nat} {transform : List (Option Nat)} {e : FlowEdge}
    {p : Point} (h : ctx.flowEdge source target transform = .ok e)
    (hp : ctx.points[source]? = some p) :
    ∃ q, ctx.points[e.target]? = some q ∧ e.Fits p.catalog q.catalog := by
  have hpoint : ctx.point source = .ok p := by simp [point, hp]
  simp only [flowEdge, hpoint, bind, Except.bind, pure, Except.pure] at h
  split at h
  · cases h
  cases hq : ctx.point target with
  | error e => simp [hq] at h
  | ok q =>
    simp only [hq] at h
    split at h
    · cases h
    next hlength =>
    cases hfind : transform.reduceOption.find? (q.catalog.size ≤ ·) with
    | some i => simp [hfind] at h
    | none =>
      simp only [hfind, Except.ok.injEq] at h
      subst h
      refine ⟨q, point_ok hq, by simpa using hlength, fun t ht => ?_⟩
      have hnot := List.find?_eq_none.mp hfind t (List.reduceOption_mem_iff.mpr ht)
      simpa using hnot

/-! ## What a request does to edges -/

section Links

open Point (Akin Sliced Grown)

/-- What a point becomes as far as edges are concerned: it gets only edges that fit, and if it has
edges then, it has kept its variables. -/
structure Links (ctx : Context) (p q : Point) : Prop where
  akin : p.Akin q
  edges : ∀ e ∈ q.edges, q.catalog = p.catalog ∧
    (e ∈ p.edges ∨ ∃ r, ctx.points[e.target]? = some r ∧ e.Fits p.catalog r.catalog)

theorem links_refl (ctx : Context) (p : Point) : Links ctx p p :=
  ⟨Point.akin_refl p, fun _ he => ⟨rfl, .inl he⟩⟩

theorem Links.of_steady {p q : Point} (h : p.Steady q) (hedges : q.edges = p.edges) :
    Links ctx p q := ⟨h.akin, fun _ he => ⟨h.catalog, .inl (hedges ▸ he)⟩⟩

theorem links_of_sliced (p q : Point) (h : Sliced p q) : Links ctx p q := by
  refine .of_steady h.steady ?_
  obtain ⟨_, _, _, _, rfl⟩ := h
  rfl

theorem links_of_grown {p q : Point} (h : Grown p q) : Links ctx p q := by
  refine ⟨h.akin, fun e he => ?_⟩
  rw [h.onlyGrows.edges] at he
  refine ⟨h.mapped ?_, .inl he⟩
  cases hnone : p.hasNoEdges with
  | false => rfl
  | true => simp [Point.edges_eq_nil hnone] at he

theorem links_of_noted (a : Action) (p q : Point) (h : Noted ctx a p q) : Links ctx p q := by
  refine ⟨h.tagged.steady.akin, fun e he => ⟨h.tagged.steady.catalog, ?_⟩⟩
  cases h with
  | nothing => exact .inl he
  | object => exact .inl he
  | dataflow hp hedge =>
    simp only [Point.edges, List.mem_append, List.mem_singleton] at he ⊢
    rcases he with (he | rfl) | he
    · exact .inl (.inl he)
    · exact .inr (flowEdge_ok hedge hp)
    · exact .inl (.inr he)
  | invflow hp hedge =>
    simp only [Point.edges, List.mem_append, List.mem_singleton] at he ⊢
    rcases he with he | he | rfl
    · exact .inl (.inl he)
    · exact .inl (.inr he)
    · exact .inr (flowEdge_ok hedge hp)

theorem links_perform (action : PointAction) : Keeps (Links ctx) (Point.perform action) := by
  intro p
  cases hgrows : action.grows with
  | false => exact links_of_sliced _ _ (Point.sliced_perform hgrows p)
  | true =>
    cases action with
    | addVariables vars =>
      rw [Point.perform, exec_discard]
      exact links_of_grown (Point.grown_addVariables vars p)
    | createDerived rules settings =>
      rw [Point.perform, exec_discard]
      exact links_of_grown (Point.grown_createDerived rules settings p)
    | _ => cases hgrows

theorem links_perform_context (ctx : Context) (a : Action) :
    Changes (Links ctx) ctx a ((perform a).exec ctx).2 :=
  changes_perform_of links_of_sliced ctx a (links_of_noted a) fun _ action _ => links_perform action

theorem edges_contrasted (ctx : Context) (p : Point) : (ctx.contrasted p).edges = p.edges := by
  unfold contrasted
  dsimp only
  split <;> rfl

end Links

/-! ## Edges that fit -/

/-- Every edge maps all variables of its point to variables that its target has. -/
structure Routed (ctx : Context) : Prop where
  /-- Catalogs are made by adding variables. -/
  ofList : ∀ {i : Nat} {p : Point}, ctx.points[i]? = some p → ∃ ds, p.catalog = .ofList ds
  /-- A child does not have more variables than its parent. -/
  smaller : ∀ {i c : Nat} {p q : Point}, ctx.points[i]? = some p → c ∈ p.children →
    ctx.points[c]? = some q → q.catalog.size ≤ p.catalog.size
  fits : ∀ {i : Nat} {p : Point} {e : FlowEdge}, ctx.points[i]? = some p → e ∈ p.edges →
    ∃ q, ctx.points[e.target]? = some q ∧ e.Fits p.catalog q.catalog

namespace Routed

theorem of_empty (h : ctx.points = []) : ctx.Routed := by constructor <;> simp [h]

theorem smaller_of_descends (h : ctx.Routed) (hforest : ctx.IsForest) {i d : Nat} {p q : Point}
    (hd : ctx.Descends i d) (hp : ctx.points[i]? = some p) (hq : ctx.points[d]? = some q) :
    q.catalog.size ≤ p.catalog.size := by
  induction hd generalizing p with
  | child hi hc =>
    rw [hp] at hi
    cases hi
    exact h.smaller hp hc hq
  | step hi hc _ ih =>
    rw [hp] at hi
    cases hi
    obtain ⟨r, -, -, hr, -⟩ := hforest.child hp hc
    exact Nat.le_trans (ih hr hq) (h.smaller hp hc hr)

theorem moves (h : ctx.Routed) (hforest : ctx.IsForest) (k : Moves (Links ctx) ctx ctx') :
    ctx'.Routed where
  ofList hi := by
    obtain ⟨p, hp, hpi⟩ := k.source hi
    obtain ⟨ds, hds⟩ := h.ofList hp
    obtain ⟨vars, hvars⟩ := hpi.akin.appended
    exact ⟨ds ++ vars, by rw [hvars, hds, Catalog.ofList_append]⟩
  smaller hi hc hq := by
    obtain ⟨p, hp, hpi⟩ := k.source hi
    obtain ⟨r, hr, hrq⟩ := k.source hq
    rw [hpi.akin.children] at hc
    obtain ⟨r', s, polarity, hr', hkind⟩ := hforest.child hp hc
    rw [hr] at hr'
    cases hr'
    rw [hrq.akin.catalog (by rw [hkind]; rfl)]
    exact Nat.le_trans (h.smaller hp hc hr) hpi.akin.size_le
  fits hi he := by
    obtain ⟨p, hp, hpi⟩ := k.source hi
    obtain ⟨hcatalog, hedge⟩ := hpi.edges _ he
    obtain ⟨r, hr, hfits⟩ := hedge.elim (h.fits hp) id
    obtain ⟨r', hr', hrr⟩ := k.point hr
    rw [hcatalog]
    exact ⟨r', hr', hfits.mono hrr.akin.size_le⟩

/-- The variables of a point are given to its descendants. None of these has edges. -/
theorem handDown (h : ctx.Routed) (hforest : ctx.IsForest) {id : Nat} {p : Point}
    (hp : ctx.points[id]? = some p) (hfollow : ctx.MayFollow (ctx.descendants id)) :
    (ctx.handDown p (ctx.descendants id)).Routed := by
  have hsource {i : Nat} {q' : Point}
      (hq' : (ctx.handDown p (ctx.descendants id)).points[i]? = some q') :
      ∃ q, ctx.points[i]? = some q ∧ (i ∈ ctx.descendants id ∧ q' = p.inherit q ∨
        i ∉ ctx.descendants id ∧ q' = q) := by
    rw [getElem?_handDown] at hq'
    split at hq'
    · next hi =>
      obtain ⟨q, hq, rfl⟩ := Option.map_eq_some_iff.mp hq'
      exact ⟨q, hq, .inl ⟨hi, rfl⟩⟩
    · next hi => exact ⟨q', hq', .inr ⟨hi, rfl⟩⟩
  refine ⟨fun hi => ?_, fun {i c _ _} hi hc hq => ?_, fun {i q' e} hi he => ?_⟩
  · obtain ⟨q, hq, ⟨-, rfl⟩ | ⟨-, rfl⟩⟩ := hsource hi
    · exact (h.ofList hp :)
    · exact h.ofList hq
  · obtain ⟨q, hq₀, hchild⟩ := hsource hq
    obtain ⟨r, hr, hparent⟩ := hsource hi
    have hc₀ : c ∈ r.children := by
      rcases hparent with ⟨-, rfl⟩ | ⟨-, rfl⟩ <;> exact hc
    have hboth := hforest.mem_descendants_iff (i := id) hr hc₀
    rcases hchild with ⟨hmem, rfl⟩ | ⟨hnot, rfl⟩ <;>
      rcases hparent with ⟨hmem', rfl⟩ | ⟨hnot', rfl⟩
    · exact Nat.le_refl _
    · -- the parent is the point itself
      obtain rfl : i = id := (hboth.mp hmem).resolve_right hnot'
      rw [hp] at hr
      cases hr
      exact Nat.le_refl _
    · exact absurd (hboth.mpr (.inr hmem')) hnot
    · exact h.smaller hr hc₀ hq₀
  · obtain ⟨q, hq, ⟨hmem, rfl⟩ | ⟨-, rfl⟩⟩ := hsource hi
    · obtain ⟨q', hq', hok⟩ := hfollow i hmem
      rw [hq] at hq'
      cases hq'
      have hnone : (p.inherit q).edges = [] := (Point.edges_eq_nil (Point.checkFollows_ok hok).2 :)
      simp [hnone] at he
    · obtain ⟨r, hr, hfits⟩ := h.fits hq he
      have hr' := getElem?_handDown ctx p (ctx.descendants id) e.target
      split at hr'
      · next hmem =>
        rw [hr] at hr'
        have hle := h.smaller_of_descends hforest (hforest.mem_descendants.mp hmem) hp hr
        exact ⟨_, hr', hfits.mono hle⟩
      · rw [hr] at hr'
        exact ⟨r, hr', hfits⟩

theorem grows (h : ctx.Routed) (hforest : ctx.IsForest) {id : Nat} {α : Type}
    {r : Except Error α} (k : ctx.GrowsAt id (r, ctx')) : ctx'.Routed := by
  cases k with
  | failed e => exact h
  | still a hp hgrown hsteady =>
    exact h.moves hforest (moves_set (links_refl ctx) hp (links_of_grown hgrown))
  | @shared p q a hp hgrown hfollow =>
    have hset := h.moves hforest (moves_set (links_refl ctx) hp (links_of_grown hgrown))
    have hforest' := hforest.moves (moves_set Point.kin_refl hp hgrown.akin.kin)
    have hsame := descendants_set hp hgrown.children id
    have hshared := hset.handDown hforest' (List.getElem?_set_self (lt_of_point hp))
      (hsame ▸ hfollow.set hp hgrown.onlyGrows.checkFollows)
    rw [hsame] at hshared
    exact hshared

/-- A new point has no edges, and the variables of its parent if it has one. -/
theorem adds (h : ctx.Routed) {parent : Option Nat} {new : Point} (k : ctx.Adds parent new ctx')
    (hofList : ∃ ds, new.catalog = .ofList ds) (hchildren : new.children = [])
    (hedges : new.edges = [])
    (hparent : ∀ i p, parent = some i → ctx.points[i]? = some p → new.catalog = p.catalog)
    (hforest : ctx.IsForest) : ctx'.Routed where
  ofList hi := by
    rcases k.source hi with ⟨rfl, rfl⟩ | ⟨p, hp, hpi⟩
    · exact hofList
    · rw [hpi.catalog]
      exact h.ofList hp
  smaller hi hc hq := by
    rcases k.source hi with ⟨rfl, rfl⟩ | ⟨p, hp, hpi⟩
    · simp [hchildren] at hc
    rw [hpi.catalog]
    rcases hpi.mem_children.mp hc with hc | ⟨hadopted, rfl⟩
    · obtain ⟨q, -, -, hq₀, -⟩ := hforest.child hp hc
      obtain ⟨q', hq', hqq⟩ := k.kept hq₀
      rw [hq] at hq'
      cases hq'
      rw [hqq.catalog]
      exact h.smaller hp hc hq₀
    · rw [k.created] at hq
      cases hq
      exact Nat.le_of_eq (congrArg Catalog.size (hparent _ p hadopted hp))
  fits hi he := by
    rcases k.source hi with ⟨rfl, rfl⟩ | ⟨p, hp, hpi⟩
    · simp [hedges] at he
    · rw [hpi.edges] at he
      obtain ⟨q, hq, hfits⟩ := h.fits hp he
      obtain ⟨q', hq', hqq⟩ := k.kept hq
      rw [hpi.catalog]
      exact ⟨q', hq', by rw [hqq.catalog]; exact hfits⟩

/-- A child is added with the variables of its parent. -/
theorem addChild (h : ctx.Routed) (hforest : ctx.IsForest) (id : Nat) (s : Splitter)
    (polarity : Bool) : ((addChild id s polarity).exec ctx).2.Routed := by
  rcases addChild_cases id s polarity ctx with ⟨e, hfail⟩ | ⟨p, ctx', hp, -, hadd, hadds⟩
  · rw [hfail]
    exact h
  · rw [hadd]
    refine h.adds hadds (h.ofList hp :) rfl rfl ?_ hforest
    rintro i q ⟨⟩ hq
    rw [hp] at hq
    cases hq
    rfl

end Routed

theorem routed_split (id : Nat) (splitters : List Splitter) :
    Keeps (fun ctx ctx' : Context => ctx.IsForest ∧ ctx.Routed → ctx'.IsForest ∧ ctx'.Routed)
      (split id splitters) := by
  have hchild (s : Splitter) (polarity : Bool) :
      Keeps (fun ctx ctx' : Context => ctx.IsForest ∧ ctx.Routed → ctx'.IsForest ∧ ctx'.Routed)
        (addChild id s polarity) :=
    fun ctx h => ⟨h.1.addChild id s polarity, h.2.addChild h.1 id s polarity⟩
  exact keeps_split (fun _ h => h) (fun _ _ _ h k ha => k (h ha)) hchild splitters

theorem Routed.changes {a : Action} (h : ctx.Routed) (hforest : ctx.IsForest)
    (k : Changes (Links ctx) ctx a ctx') : ctx'.Routed := by
  cases k with
  | moved k => exact h.moves hforest k
  | grown k => exact h.grows hforest k
  | added vars hfree =>
    exact h.adds (adds_alone ctx _) ⟨vars, rfl⟩ rfl rfl (by rintro i p ⟨⟩) hforest
  | split id splitters => exact (routed_split id splitters ctx ⟨hforest, h⟩).2
  | @contrasted id p _ hp =>
    exact h.moves hforest (moves_set (links_refl ctx) hp
      (.of_steady (annotated_contrasted ctx p).steady (edges_contrasted ctx p)))
  | @marked id p included _ hp =>
    have hset := h.moves hforest (moves_set (links_refl ctx) hp (.of_steady
      (tagged_mark p (ctx.redundancyPass id p included).2.1).steady rfl))
    exact ⟨hset.ofList, hset.smaller, hset.fits⟩

/-- After a session every edge fits. -/
theorem routed_after (hempty : ctx.points = []) (acts : List Action) : (ctx.after acts).Routed :=
  (after_induction (P := fun ctx => ctx.WellFormed ∧ ctx.Routed) (fun ctx a h =>
    ⟨h.1.changes (changes_perform ctx a), h.2.changes h.1.isForest (links_perform_context ctx a)⟩)
    ⟨.of_empty hempty, .of_empty hempty⟩ acts).2

theorem Attained.routed (h : ctx.Attained) : ctx.Routed := by
  obtain ⟨start, acts, hempty, rfl⟩ := h
  exact routed_after hempty acts

end Context

/-! ## What arrives at the other end -/

section Carrying

/-- A variable of the source at position `i` whose slot is `j` is mapped to position `t`. -/
def FlowEdge.Sends (e : FlowEdge) (source : Catalog) (t i j : Nat) : Prop :=
  e.transform[i]? = some (some t) ∧ ∃ v, source.var? i = some v ∧ v.slot = some j

/-- From the end of a list, the last element with a property is found first. -/
theorem find?_reverse_zipIdx {α : Type} {l : List α} {P : α × Nat → Bool} {a : α} {i : Nat}
    (ha : l[i]? = some a) (hP : P (a, i))
    (hlast : ∀ b j, l[j]? = some b → P (b, j) → j ≤ i) :
    l.zipIdx.reverse.find? P = some (a, i) := by
  have hget : l.zipIdx[i]? = some (a, i) := by simp [List.getElem?_zipIdx, ha]
  obtain ⟨hi, hai⟩ := List.getElem?_eq_some_iff.mp hget
  refine List.find?_eq_some_iff_append.mpr
    ⟨hP, (l.zipIdx.drop (i + 1)).reverse, (l.zipIdx.take i).reverse, ?_, fun x hx => ?_⟩
  · rw [← hai]
    conv => lhs; rw [← List.take_append_drop i l.zipIdx, List.drop_eq_getElem_cons hi]
    simp
  · obtain ⟨n, hn⟩ := List.mem_iff_getElem?.mp (List.mem_reverse.mp hx)
    rw [List.getElem?_drop, List.getElem?_zipIdx] at hn
    obtain ⟨b, hb, rfl⟩ := Option.map_eq_some_iff.mp hn
    rw [Nat.zero_add]
    cases hfound : P (b, i + 1 + n) with
    | false => rfl
    | true =>
      have hle := hlast b (i + 1 + n) hb hfound
      omega

variable {e : FlowEdge} {source target : Catalog} {s : Sample}

/-- What arrives has a slot for each variable of the target. -/
theorem FlowEdge.size_carry (e : FlowEdge) (source target : Catalog) (s : Sample) :
    (e.carry source target s).size = target.slotCount := by
  simp [carry, Sample.size]

/-- The slots between which an edge carries a mapping over. -/
def FlowEdge.route? (source target : Catalog) (x : Option Nat × Nat) : Option (Nat × Nat) := do
  let v ← source.var? x.2
  let w ← target.var? (← x.1)
  some (← v.slot, ← w.slot)

theorem FlowEdge.slots_carry {k : Nat} (hk : k < target.slotCount) :
    (e.carry source target s).slots[k]? = some ((e.transform.zipIdx.reverse.find? fun x =>
      (route? source target x).any (·.2 = k)).bind fun x =>
        (route? source target x).bind fun r => s.reading? r.1) := by
  have hroutes : (e.routes source target).reverse =
      e.transform.zipIdx.reverse.filterMap (route? source target) := by
    rw [routes, ← List.filterMap_reverse]
    rfl
  simp only [carry, hroutes, List.getElem?_map, List.getElem?_range hk, Option.map_some,
    List.find?_filterMap, Option.bind_assoc]

section Target

variable {t k : Nat} {w : Variable} (htarget : target.IsSlotted) (hw : target.var? t = some w)
  (hk : w.slot = some k)

include htarget hw hk

/-- A slot of the target is reached from the variables that are mapped to the variable of that
slot. -/
theorem FlowEdge.route?_eq_some {j : Nat} {x : Option Nat × Nat} :
    route? source target x = some (j, k) ↔
      x.1 = some t ∧ ∃ v, source.var? x.2 = some v ∧ v.slot = some j := by
  constructor
  · intro h
    simp only [route?, bind, Option.bind_eq_some_iff, Option.some.injEq, Prod.mk.injEq] at h
    obtain ⟨v, hv, t', ht, w', hw', j', hj, k', hk', rfl, rfl⟩ := h
    obtain rfl := htarget.slot_inj hw' hw hk' hk
    exact ⟨ht, v, hv, hj⟩
  · rintro ⟨ht, v, hv, hj⟩
    simp [route?, ht, hv, hw, hj, hk]

theorem FlowEdge.any_route?_iff {g : Option Nat} {i : Nat} (hg : e.transform[i]? = some g) :
    (route? source target (g, i)).any (·.2 = k) ↔ ∃ j, e.Sends source t i j := by
  rw [Option.any_eq_true]
  constructor
  · rintro ⟨⟨j, k'⟩, hroute, hk'⟩
    obtain rfl : k' = k := by simpa using hk'
    obtain ⟨rfl, hv⟩ := (route?_eq_some htarget hw hk).mp hroute
    exact ⟨j, hg, hv⟩
  · rintro ⟨j, hsends, hv⟩
    rw [hg, Option.some.injEq] at hsends
    exact ⟨(j, k), (route?_eq_some htarget hw hk).mpr ⟨hsends, hv⟩, by simp⟩

/-- Of the variables that are mapped to one variable, the last that has a slot counts. -/
theorem FlowEdge.slots_carry_of_last {i j : Nat} (hi : e.Sends source t i j)
    (hlast : ∀ i' j', e.Sends source t i' j' → i' ≤ i) (s : Sample) :
    (e.carry source target s).slots[k]? = some (s.reading? j) := by
  have hfind := find?_reverse_zipIdx (P := fun x => (route? source target x).any (·.2 = k)) hi.1
    ((any_route?_iff htarget hw hk hi.1).mpr ⟨j, hi⟩) fun g i' hg hany => by
      obtain ⟨j', hsends⟩ := (any_route?_iff htarget hw hk hg).mp hany
      exact hlast i' j' hsends
  have hroute : route? source target (some t, i) = some (j, k) :=
    (route?_eq_some htarget hw hk).mpr ⟨rfl, hi.2⟩
  rw [slots_carry (htarget.slot_lt hw hk), hfind]
  simp [hroute]

/-- A variable that none with a slot is mapped to is missing. -/
theorem FlowEdge.slots_carry_of_none (hnone : ∀ i j, ¬e.Sends source t i j) (s : Sample) :
    (e.carry source target s).slots[k]? = some none := by
  have hfind : (e.transform.zipIdx.reverse.find? fun x =>
      (route? source target x).any (·.2 = k)) = none := by
    refine List.find?_eq_none.mpr fun x hx hany => ?_
    have hg := List.mem_zipIdx_iff_getElem?.mp (List.mem_reverse.mp hx)
    obtain ⟨j, hsends⟩ := (any_route?_iff htarget hw hk hg).mp hany
    exact hnone x.2 j hsends
  rw [slots_carry (htarget.slot_lt hw hk), hfind]
  rfl

end Target

end Carrying

end LikelyInvariants
