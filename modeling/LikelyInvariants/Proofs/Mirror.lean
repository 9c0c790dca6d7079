import LikelyInvariants.Proofs.Family

/-!
# Children mirror their parents

Through requests to the context a child has the variables of its parent at any time, and their
derivations (`Context.mirrors_parent`). They get new ones together: the descendants of a point are
asked first whether they may follow, and they are the points that follow in the end, since whether a
point may follow does not depend on its variables. A request for more variables that fails changes
nothing at all.
-/

namespace LikelyInvariants

open Update

/-- Two points have the same variables, derived in the same way. -/
structure Point.Mirrors (q p : Point) : Prop where
  catalog : q.catalog = p.catalog
  derivations : q.derivations = p.derivations

namespace Point.Mirrors

theorem refl (p : Point) : Mirrors p p := ⟨rfl, rfl⟩

theorem symm {p q : Point} (h : Mirrors q p) : Mirrors p q :=
  ⟨h.catalog.symm, h.derivations.symm⟩

theorem trans {p q r : Point} (h : Mirrors r q) (k : Mirrors q p) : Mirrors r p :=
  ⟨h.catalog.trans k.catalog, h.derivations.trans k.derivations⟩

theorem of_steady {p q : Point} (h : Steady p q) : Mirrors q p := ⟨h.catalog, h.derivations⟩

theorem inherit (p q : Point) : Mirrors (p.inherit q) p := ⟨rfl, rfl⟩

end Point.Mirrors

/-- Whether a request gives a point variables past the context, where its children do not follow. -/
def Action.bypasses : Action → Bool
  | atPoint _ action => action.grows
  | _ => false

namespace Context

/-! ## Handing variables down -/

section Spread

/-- When a point has got variables, it and its descendants have the same, and no other point has
changed. -/
theorem mirrors_or_eq_of_spread {ctx : Context} {id j : Nat} {p q r r' : Point}
    (hp : ctx.points[id]? = some p) (hr : ctx.points[j]? = some r)
    (hr' : (ctx.spread id q).points[j]? = some r') :
    if j = id ∨ j ∈ ctx.descendants id then r'.Mirrors q else r' = r := by
  rw [spread, getElem?_handDown] at hr'
  by_cases hj : id = j
  · subst hj
    rw [if_pos (.inl rfl)]
    rw [List.getElem?_set_self (lt_of_point hp)] at hr'
    split at hr' <;> cases hr'
    · exact .inherit q q
    · exact .refl q
  · rw [List.getElem?_set_ne hj, hr] at hr'
    by_cases hd : j ∈ ctx.descendants id
    · rw [if_pos hd] at hr'
      cases hr'
      rw [if_pos (.inr hd)]
      exact .inherit q r
    · rw [if_neg hd] at hr'
      cases hr'
      rw [if_neg (not_or.mpr ⟨Ne.symm hj, hd⟩)]

end Spread

/-! ## Mirrored variables -/

/-- Every child knows its parent, comes after it and after the children before, and has its
variables. -/
structure Mirrored (ctx : Context) : Prop where
  child : ∀ {i c : Nat} {p : Point}, ctx.points[i]? = some p → c ∈ p.children →
    ∃ (q : Point) (s : Splitter) (polarity : Bool),
      ctx.points[c]? = some q ∧ q.kind = .conditional i s polarity
  ascending : ∀ {i : Nat} {p : Point}, ctx.points[i]? = some p → (i :: p.children).Pairwise (· < ·)
  mirrors : ∀ {i c : Nat} {p q : Point}, ctx.points[i]? = some p → c ∈ p.children →
    ctx.points[c]? = some q → q.Mirrors p

namespace Mirrored

variable {ctx ctx' : Context}

theorem of_empty (h : ctx.points = []) : ctx.Mirrored := by constructor <;> simp [h]

theorem isForest (h : ctx.Mirrored) : ctx.IsForest := ⟨h.child, h.ascending⟩

/-- Every descendant of a point has its variables. -/
theorem mirrors_of_descends (h : ctx.Mirrored) {i d : Nat} {p q : Point}
    (hd : ctx.Descends i d) (hp : ctx.points[i]? = some p) (hq : ctx.points[d]? = some q) :
    q.Mirrors p := by
  induction hd generalizing p with
  | child hi hc =>
    rw [hp] at hi
    cases hi
    exact h.mirrors hp hc hq
  | step hi hc _ ih =>
    rw [hp] at hi
    cases hi
    obtain ⟨r, -, -, hr, -⟩ := h.child hp hc
    exact (ih hr hq).trans (h.mirrors hp hc hr)

/-! ## What requests keep -/

/-- Changes that leave relatives alone, and after which children still have the variables of their
parents. -/
theorem moves_kin (h : ctx.Mirrored) (k : Moves Point.Kin ctx ctx')
    (hmirrors : ∀ {i c : Nat} {p p' q q' : Point}, ctx.points[i]? = some p → c ∈ p.children →
      ctx.points[c]? = some q → ctx'.points[i]? = some p' → ctx'.points[c]? = some q' →
      q'.Mirrors p') : ctx'.Mirrored where
  child := (h.isForest.moves k).child
  ascending := (h.isForest.moves k).ascending
  mirrors hi hc hq := by
    obtain ⟨p, hp, hpi⟩ := k.source hi
    obtain ⟨q, hq₀, -⟩ := k.source hq
    rw [hpi.children] at hc
    exact hmirrors hp hc hq₀ hi hq

theorem moves (h : ctx.Mirrored) (k : Moves Point.Steady ctx ctx') : ctx'.Mirrored := by
  refine h.moves_kin (k.mono fun _ _ => Point.Steady.kin)
    fun {i c p p' q q'} hp hc hq hp' hq' => ?_
  obtain ⟨p'', hp'', hpi⟩ := k.point hp
  obtain ⟨q'', hq'', hqc⟩ := k.point hq
  rw [hp'] at hp''
  rw [hq'] at hq''
  cases hp''
  cases hq''
  have hparent := (Point.Mirrors.of_steady hpi).symm
  exact ((Point.Mirrors.of_steady hqc).trans (h.mirrors hp hc hq)).trans hparent

/-- A point that got variables hands them down to its descendants. -/
theorem spread (h : ctx.Mirrored) {id : Nat} {p q : Point} (hp : ctx.points[id]? = some p)
    (hgrown : p.Grown q) : (ctx.spread id q).Mirrored := by
  have hmoves : Moves Point.Kin ctx (ctx.spread id q) :=
    moves_trans Point.kin_trans _ _ _
      (moves_set Point.kin_refl hp ⟨hgrown.still.name, hgrown.still.kind, hgrown.children⟩)
      (moves_handDown Point.kin_refl fun _ _ r _ => ⟨rfl, rfl, rfl⟩)
  refine h.moves_kin hmoves fun {i c r r' t t'} hr hc ht hr' ht' => ?_
  have hparent := mirrors_or_eq_of_spread hp hr hr'
  have hchild := mirrors_or_eq_of_spread hp ht ht'
  have hboth : c ∈ ctx.descendants id ↔ i = id ∨ i ∈ ctx.descendants id :=
    h.isForest.mem_descendants_iff hr hc
  by_cases hi : i = id ∨ i ∈ ctx.descendants id
  · rw [if_pos hi] at hparent
    rw [if_pos (.inr (hboth.mpr hi))] at hchild
    exact hchild.trans hparent.symm
  rw [if_neg hi] at hparent
  subst hparent
  by_cases hid : c = id
  · -- a child does not grow without its parent
    subst hid
    rw [if_pos (.inl rfl)] at hchild
    obtain ⟨t₀, s, b, ht₀, hkind⟩ := h.child hr hc
    rw [hp] at ht₀
    cases ht₀
    obtain rfl : q = p := hgrown.frozen (.inr (by rw [hkind]; rfl))
    exact hchild.trans (h.mirrors hr hc hp)
  · have hc' : ¬(c = id ∨ c ∈ ctx.descendants id) := not_or.mpr ⟨hid, mt hboth.mp hi⟩
    rw [if_neg hc'] at hchild
    subst hchild
    exact h.mirrors hr hc ht

theorem grows (h : ctx.Mirrored) {id : Nat} {α : Type} {r : Except Error α}
    (k : ctx.GrowsAt id (r, ctx')) : ctx'.Mirrored := by
  cases k with
  | failed e => exact h
  | still a hp hgrown hsteady => exact h.moves (moves_set Point.steady_refl hp hsteady)
  | shared a hp hgrown hfollow => exact h.spread hp hgrown

/-- A new point has no children, and the variables of its parent if it has one. -/
theorem adds (h : ctx.Mirrored) {parent : Option Nat} {new : Point}
    (k : ctx.Adds parent new ctx') (hchildren : new.children = [])
    (hparent : ∀ i, parent = some i → ∃ p s polarity, ctx.points[i]? = some p ∧ new.Mirrors p ∧
      new.kind = .conditional i s polarity) : ctx'.Mirrored := by
  have hforest : ctx'.IsForest := by
    refine h.isForest.adds hchildren (fun {i} hi => ?_) k
    obtain ⟨-, s, polarity, -, -, hkind⟩ := hparent i hi
    exact ⟨s, polarity, hkind⟩
  refine ⟨hforest.child, hforest.ascending, fun hi hc hq => ?_⟩
  rcases k.source hi with ⟨rfl, rfl⟩ | ⟨p, hp, hpi⟩
  · simp [hchildren] at hc
  · have hsame : Point.Mirrors _ p := ⟨hpi.catalog, hpi.derivations⟩
    rcases hpi.mem_children.mp hc with hc | ⟨hadopted, rfl⟩
    · obtain ⟨q, -, -, hq₀, -⟩ := h.child hp hc
      obtain ⟨q', hq', hqq⟩ := k.kept hq₀
      rw [hq] at hq'
      cases hq'
      have hchild : Point.Mirrors _ q := ⟨hqq.catalog, hqq.derivations⟩
      exact (hchild.trans (h.mirrors hp hc hq₀)).trans hsame.symm
    · obtain ⟨p₀, -, -, hp₀, hmirrors, -⟩ := hparent _ hadopted
      rw [hp] at hp₀
      cases hp₀
      rw [k.created] at hq
      cases hq
      exact hmirrors.trans hsame.symm

end Mirrored

/-- A child is added with the variables of its parent. -/
theorem mirrored_addChild (id : Nat) (s : Splitter) (polarity : Bool) :
    Keeps (fun ctx ctx' : Context => ctx.Mirrored → ctx'.Mirrored) (addChild id s polarity) := by
  intro ctx h
  rcases addChild_cases id s polarity ctx with ⟨e, hfail⟩ | ⟨p, ctx', hp, -, hadd, hadds⟩
  · rw [hfail]
    exact h
  · rw [hadd]
    refine h.adds hadds rfl ?_
    rintro i ⟨⟩
    exact ⟨p, s, polarity, hp, ⟨rfl, rfl⟩, rfl⟩

theorem mirrored_split (id : Nat) (splitters : List Splitter) :
    Keeps (fun ctx ctx' : Context => ctx.Mirrored → ctx'.Mirrored) (split id splitters) := by
  have hrefl : ∀ ctx : Context, ctx.Mirrored → ctx.Mirrored := fun _ h => h
  have htrans : ∀ a b c : Context, (a.Mirrored → b.Mirrored) → (b.Mirrored → c.Mirrored) →
      a.Mirrored → c.Mirrored := fun _ _ _ h k ha => k (h ha)
  exact keeps_split hrefl htrans (fun s polarity => mirrored_addChild id s polarity) splitters

theorem Mirrored.changes {ctx ctx' : Context} {a : Action} (h : ctx.Mirrored)
    (k : Changes Point.Steady ctx a ctx') : ctx'.Mirrored := by
  cases k with
  | moved k => exact h.moves k
  | grown k => exact h.grows k
  | added vars hfree => exact h.adds (adds_alone ctx _) rfl (by rintro i ⟨⟩)
  | split id splitters => exact mirrored_split id splitters ctx h
  | @contrasted id p _ hp =>
    exact h.moves (moves_set Point.steady_refl hp (annotated_contrasted ctx p).steady)
  | @marked id p included _ hp =>
    have hset := h.moves (moves_set Point.steady_refl hp
      (tagged_mark p (ctx.redundancyPass id p included).2.1).steady)
    exact ⟨hset.child, hset.ascending, hset.mirrors⟩

/-! ## Reachable contexts -/

/-- What a context without points comes to by requests to it, failing ones included. The points
that are added may have been prepared before. -/
inductive Reachable : Context → Prop
  | start {ctx : Context} (h : ctx.points = []) : Reachable ctx
  | added {ctx : Context} (h : Reachable ctx) (name : String) (vars : List Declaration)
      (acts : List PointAction) :
      Reachable ((addPoint ((Point.ofVariables name vars).after acts)).exec ctx).2
  | performed {ctx : Context} (h : Reachable ctx) {a : Action} (ha : a.bypasses = false) :
      Reachable ((perform a).exec ctx).2

/-- A point that was prepared before it is added stands alone. -/
theorem WellFormed.addPoint {ctx : Context} (h : ctx.WellFormed) (name : String)
    (vars : List Declaration) (acts : List PointAction) :
    ((addPoint ((Point.ofVariables name vars).after acts)).exec ctx).2.WellFormed := by
  have hakin := Point.akin_after acts (.ofVariables name vars)
  rcases addPoint_cases ((Point.ofVariables name vars).after acts) ctx with
    ⟨e, hfail⟩ | ⟨hfree, hadd⟩
  · rw [hfail]
    exact h
  · rw [hadd]
    obtain ⟨more, hmore⟩ := hakin.appended
    refine h.adds ⟨hfree, hakin.children, ?_, ?_, ?_, ?_⟩ (adds_alone ctx _)
    · rintro i ⟨⟩
    · intro i s polarity hkind
      rw [hakin.kind] at hkind
      cases hkind
    · intro i s hkind
      rw [hakin.kind] at hkind
      cases hkind
    · rw [hmore]
      exact (Catalog.isIndexed_ofList vars).append more

namespace Reachable

variable {ctx : Context}

theorem after (h : ctx.Reachable) {acts : List Action} (hacts : ∀ a ∈ acts, a.bypasses = false) :
    (ctx.after acts).Reachable := by
  induction acts generalizing ctx with
  | nil => exact h
  | cons a acts ih =>
    obtain ⟨ha, hrest⟩ := List.forall_mem_cons.mp hacts
    exact ih (h.performed ha) hrest

theorem wellFormed (h : ctx.Reachable) : ctx.WellFormed := by
  induction h with
  | start h => exact .of_empty h
  | added _ name vars acts ih => exact ih.addPoint name vars acts
  | @performed ctx _ a _ ih => exact ih.changes (changes_perform ctx a)

theorem mirrored (h : ctx.Reachable) : ctx.Mirrored := by
  induction h with
  | start h => exact .of_empty h
  | @added ctx _ name vars acts ih =>
    rcases addPoint_cases ((Point.ofVariables name vars).after acts) ctx with
      ⟨e, hfail⟩ | ⟨-, hadd⟩
    · rw [hfail]
      exact ih
    · rw [hadd]
      have hakin := Point.akin_after acts (.ofVariables name vars)
      exact ih.adds (adds_alone ctx _) hakin.children (by rintro i ⟨⟩)
  | @performed ctx _ a ha ih =>
    refine ih.changes (changes_perform_of (fun _ _ => Point.Sliced.steady) ctx a
      (fun _ _ h => h.tagged.steady) ?_)
    rintro id action rfl
    exact Point.steady_perform ha

end Reachable

/-- In every reachable context the children of a point have its variables and their derivations,
and so have all its descendants. A request for more variables that fails changes nothing. -/
theorem mirrors_parent {ctx : Context} (h : ctx.Reachable) :
    (∀ (i c : Nat) (q : Point) (s : Splitter) (polarity : Bool), ctx.points[c]? = some q →
      q.kind = .conditional i s polarity → ∃ p, ctx.points[i]? = some p ∧ q.Mirrors p) ∧
    (∀ (i d : Nat) (p q : Point), ctx.points[i]? = some p → d ∈ ctx.descendants i →
      ctx.points[d]? = some q → q.Mirrors p) ∧
    (∀ (id : Nat) (vars : List Declaration) (e : Error) (ctx' : Context),
      (addVariables id vars).exec ctx = (.error e, ctx') → ctx' = ctx) ∧
    ∀ (id : Nat) (e : Error) (ctx' : Context),
      (createDerived id).exec ctx = (.error e, ctx') → ctx' = ctx := by
  refine ⟨fun i c q s polarity hq hkind => ?_, fun i d p q hp hd hq => ?_,
    fun id vars e ctx' hexec => ?_, fun id e ctx' hexec => ?_⟩
  · obtain ⟨p, hp, hc, -⟩ := h.wellFormed.parent hq hkind
    exact ⟨p, hp, h.mirrored.mirrors hp hc hq⟩
  · exact h.mirrored.mirrors_of_descends (h.mirrored.isForest.mem_descendants.mp hd) hp hq
  · have hgrows := growsAt_addVariables id vars ctx
    rw [hexec] at hgrows
    cases hgrows
    rfl
  · have hgrows := growsAt_createDerived id ctx
    rw [hexec] at hgrows
    cases hgrows
    rfl

/-- A point is split and derives variables. Then one of its children opens its slices. -/
def frozenChild : List Action :=
  [.addPoint "P" [{ name := "n", type := .int }, { name := "s", type := .strSeq }],
    .split 0 [.compare "n" .gt 0], .createDerived 0, .openViews 2 0 8]

/-- The child has the derived variables too, and its parent does not get more than it. -/
theorem mirrors_parent_frozenChild :
    let ctx := standard.after frozenChild
    (∃ p q, ctx.points[0]? = some p ∧ ctx.points[2]? = some q ∧ p.catalog.size = 8 ∧
      q.Mirrors p) ∧
    ∃ e, (addVariables 0 [{ name := "m", type := .int }]).exec ctx = (.error e, ctx) := by
  intro ctx
  have hreachable : ctx.Reachable := .after (.start rfl) (by decide)
  obtain ⟨hparent, -, hfails, -⟩ := mirrors_parent hreachable
  constructor
  · have hkind : ctx.points[2]?.map (·.kind) =
        some (.conditional 0 (.compare "n" .gt 0) true) := by decide +kernel
    obtain ⟨q, hq, hkind⟩ := Option.map_eq_some_iff.mp hkind
    obtain ⟨p, hp, hmirrors⟩ := hparent 0 2 q _ _ hq hkind
    have hsize : ctx.points[0]?.map (·.catalog.size) = some 8 := by decide +kernel
    rw [hp, Option.map_some, Option.some.injEq] at hsize
    exact ⟨p, q, hp, hq, hsize, hmirrors⟩
  · have hfail : ((addVariables 0 [{ name := "m", type := .int }]).exec ctx).1.isOk = false := by
      decide +kernel
    rcases hexec : (addVariables 0 [{ name := "m", type := .int }]).exec ctx with ⟨e | r, ctx'⟩
    · exact ⟨e, by rw [hfails 0 _ e ctx' hexec]⟩
    · rw [hexec] at hfail
      cases hfail

end Context

end LikelyInvariants
