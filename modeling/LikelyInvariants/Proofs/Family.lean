import LikelyInvariants.Proofs.Forest

/-!
# Parents and children

Children are added in pairs, one for each way a condition can turn out, and the two get their
variables together for the rest of their lives. So the two children of one condition always have
the same catalog (`Context.WellFormed.catalog_eq_of_halves`).

That they are the two of one pair, and not of two pairs that were added at different times, is due
to their names: the name of a child says whose child it is and for which condition, and names are
unique. All this, and that variables know their positions, every request keeps
(`Context.wellFormed_after`).
-/

namespace LikelyInvariants

open Update

/-- The name of a child. -/
def childName (parent : String) (s : Splitter) (polarity : Bool) : String :=
  let negation := if polarity then "" else "not "
  s!"{parent};condition=\"{negation}{s.condition}\""

namespace Context

/-- What the points of a context have to do with each other. -/
structure WellFormed (ctx : Context) : Prop where
  /-- Names are unique. -/
  names : ∀ {i j : Nat} {p q : Point}, ctx.points[i]? = some p → ctx.points[j]? = some q →
    p.name = q.name → i = j
  /-- The children of a point know it as their parent. -/
  child : ∀ {i c : Nat} {p : Point}, ctx.points[i]? = some p → c ∈ p.children →
    ∃ (q : Point) (s : Splitter) (polarity : Bool),
      ctx.points[c]? = some q ∧ q.kind = .conditional i s polarity
  /-- Children come after their parents, and the later ones after the earlier ones. -/
  ascending : ∀ {i : Nat} {p : Point}, ctx.points[i]? = some p →
    (i :: p.children).Pairwise (· < ·)
  /-- Every child is known to its parent and named after it. -/
  parent : ∀ {i c : Nat} {q : Point} {s : Splitter} {polarity : Bool},
    ctx.points[c]? = some q → q.kind = .conditional i s polarity →
    ∃ p : Point, ctx.points[i]? = some p ∧ c ∈ p.children ∧ q.name = childName p.name s polarity
  /-- The child for a condition does not come without the one for its negation. -/
  first : ∀ {i c : Nat} {q : Point} {s : Splitter}, ctx.points[c]? = some q →
    q.kind = .conditional i s true →
    ∃ (l : Nat) (p : Point), ctx.points[l]? = some p ∧ p.kind = .conditional i s false
  /-- Every variable knows its position. -/
  indexed : ∀ {i : Nat} {p : Point}, ctx.points[i]? = some p → p.catalog.IsIndexed
  /-- The two children of a condition have the same variables. -/
  alike : ∀ {i l r : Nat} {p q : Point} {s : Splitter}, ctx.points[l]? = some p →
    ctx.points[r]? = some q → p.kind = .conditional i s false → q.kind = .conditional i s true →
    p.catalog = q.catalog

namespace WellFormed

theorem of_empty {ctx : Context} (h : ctx.points = []) : ctx.WellFormed := by
  constructor <;> simp [h]

theorem isForest {ctx : Context} (h : ctx.WellFormed) : ctx.IsForest := ⟨h.child, h.ascending⟩

/-- A child of a point is its child for some condition. -/
theorem kind_of_mem_children {ctx : Context} (h : ctx.WellFormed) {i c : Nat} {p q : Point}
    (hp : ctx.points[i]? = some p) (hc : c ∈ p.children) (hq : ctx.points[c]? = some q) :
    ∃ s polarity, q.kind = .conditional i s polarity := by
  obtain ⟨q', s, polarity, hq', hkind⟩ := h.child hp hc
  rw [hq] at hq'
  cases hq'
  exact ⟨s, polarity, hkind⟩

theorem parent_of_mem_children {ctx : Context} (h : ctx.WellFormed) {i j c : Nat} {p q : Point}
    {s : Splitter} {polarity : Bool} (hp : ctx.points[i]? = some p) (hc : c ∈ p.children)
    (hq : ctx.points[c]? = some q) (hkind : q.kind = .conditional j s polarity) : j = i := by
  obtain ⟨s', polarity', hkind'⟩ := h.kind_of_mem_children hp hc hq
  rw [hkind] at hkind'
  cases hkind'
  rfl

/-- A child for a condition is among the children of its point. -/
theorem mem_children_of_kind {ctx : Context} (h : ctx.WellFormed) {i c : Nat} {p q : Point}
    {s : Splitter} {polarity : Bool} (hp : ctx.points[i]? = some p) (hq : ctx.points[c]? = some q)
    (hkind : q.kind = .conditional i s polarity) :
    c ∈ p.children ∧ q.name = childName p.name s polarity := by
  obtain ⟨p', hp', hc, hname⟩ := h.parent hq hkind
  rw [hp] at hp'
  cases hp'
  exact ⟨hc, hname⟩

/-- Changes that leave names and relatives alone leave the family alone, as long as they treat the
two children of a condition alike. -/
theorem moves_kin {ctx ctx' : Context} (h : ctx.WellFormed) (k : Moves Point.Kin ctx ctx')
    (hindexed : ∀ {i : Nat} {p : Point}, ctx'.points[i]? = some p → p.catalog.IsIndexed)
    (halike : ∀ {i l r : Nat} {p q : Point} {s : Splitter}, ctx'.points[l]? = some p →
      ctx'.points[r]? = some q → p.kind = .conditional i s false →
      q.kind = .conditional i s true → p.catalog = q.catalog) : ctx'.WellFormed where
  names hi hj hname := by
    obtain ⟨p, hp, hpi⟩ := k.source hi
    obtain ⟨q, hq, hqj⟩ := k.source hj
    exact h.names hp hq (by rw [← hpi.name, ← hqj.name, hname])
  child := (h.isForest.moves k).child
  ascending := (h.isForest.moves k).ascending
  parent hc hkind := by
    obtain ⟨q, hq, hqc⟩ := k.source hc
    obtain ⟨p, hp, hchild, hname⟩ := h.parent hq (by rw [← hqc.kind, hkind])
    obtain ⟨p', hp', hpp⟩ := k.point hp
    exact ⟨p', hp', by rw [hpp.children]; exact hchild, by rw [hqc.name, hpp.name, hname]⟩
  first hc hkind := by
    obtain ⟨q, hq, hqc⟩ := k.source hc
    obtain ⟨l, p, hp, hfirst⟩ := h.first hq (by rw [← hqc.kind, hkind])
    obtain ⟨p', hp', hpp⟩ := k.point hp
    exact ⟨l, p', hp', hpp.kind.trans hfirst⟩
  indexed := hindexed
  alike := halike

/-- The variables of children stay as they are. -/
theorem moves {ctx ctx' : Context} (h : ctx.WellFormed) (k : Moves Point.Akin ctx ctx') :
    ctx'.WellFormed := by
  refine h.moves_kin (k.mono fun _ _ => Point.Akin.kin) (fun hi => ?_)
    fun hl hr hfirst hsecond => ?_
  · obtain ⟨p, hp, hpi⟩ := k.source hi
    obtain ⟨vars, hvars⟩ := hpi.appended
    rw [hvars]
    exact (h.indexed hp).append vars
  · obtain ⟨p, hp, hpl⟩ := k.source hl
    obtain ⟨q, hq, hqr⟩ := k.source hr
    rw [hpl.kind] at hfirst
    rw [hqr.kind] at hsecond
    rw [hpl.catalog (by rw [hfirst]; rfl), hqr.catalog (by rw [hsecond]; rfl)]
    exact h.alike hp hq hfirst hsecond

end WellFormed

/-! ## New points -/

section Adding

/-- What a point becomes when a point is added: its name and its variables stay, and it may get
the new point as a child. -/
structure Gains (parent : Option Nat) (new id : Nat) (p q : Point) : Prop where
  name : q.name = p.name
  kind : q.kind = p.kind
  catalog : q.catalog = p.catalog
  derivations : q.derivations = p.derivations
  children : q.children = p.children ++ if parent = some id then [new] else []
  implications : q.implications = p.implications
  unconditional : q.unconditional = p.unconditional
  edges : q.edges = p.edges

/-- A child was there before, or it is the new point. -/
theorem Gains.mem_children {parent : Option Nat} {new id c : Nat} {p q : Point}
    (h : Gains parent new id p q) :
    c ∈ q.children ↔ c ∈ p.children ∨ parent = some id ∧ c = new := by
  rw [h.children, List.mem_append]
  split <;> simp_all

theorem Gains.ascending {parent : Option Nat} {new id : Nat} {p q : Point}
    (h : Gains parent new id p q) (hp : (id :: p.children).Pairwise (· < ·))
    (hnew : ∀ a ∈ id :: p.children, a < new) : (id :: q.children).Pairwise (· < ·) := by
  rw [h.children]
  split
  · rw [← List.cons_append]
    refine List.pairwise_append.mpr ⟨hp, List.pairwise_singleton _ _, fun a ha b hb => ?_⟩
    obtain rfl := List.mem_singleton.mp hb
    exact hnew a ha
  · rw [List.append_nil]
    exact hp

/-- A point is added at the end, to a parent or to none. -/
structure Adds (ctx : Context) (parent : Option Nat) (new : Point) (ctx' : Context) : Prop where
  scope : ctx'.scope = ctx.scope
  bridge : ctx'.bridge = ctx.bridge
  created : ctx'.points[ctx.points.length]? = some new
  kept : ∀ {i : Nat} {p : Point}, ctx.points[i]? = some p →
    ∃ q, ctx'.points[i]? = some q ∧ Gains parent ctx.points.length i p q
  source : ∀ {i : Nat} {q : Point}, ctx'.points[i]? = some q →
    (i = ctx.points.length ∧ q = new) ∨
      ∃ p, ctx.points[i]? = some p ∧ Gains parent ctx.points.length i p q

/-- A new point without children stands alone or is the last child of its parent. -/
theorem IsForest.adds {ctx ctx' : Context} {parent : Option Nat} {new : Point} (h : ctx.IsForest)
    (hchildren : new.children = [])
    (hkind : ∀ {i : Nat}, parent = some i → ∃ s polarity, new.kind = .conditional i s polarity)
    (k : ctx.Adds parent new ctx') : ctx'.IsForest where
  child hi hc := by
    rcases k.source hi with ⟨rfl, rfl⟩ | ⟨p, hp, hpi⟩
    · simp [hchildren] at hc
    · rcases hpi.mem_children.mp hc with hc | ⟨hparent, rfl⟩
      · obtain ⟨q, s, polarity, hq, hkind⟩ := h.child hp hc
        obtain ⟨q', hq', hqq⟩ := k.kept hq
        exact ⟨q', s, polarity, hq', hqq.kind.trans hkind⟩
      · obtain ⟨s, polarity, hkind⟩ := hkind hparent
        exact ⟨new, s, polarity, k.created, hkind⟩
  ascending hi := by
    rcases k.source hi with ⟨rfl, rfl⟩ | ⟨p, hp, hpi⟩
    · rw [hchildren]
      exact List.pairwise_singleton _ _
    · refine hpi.ascending (h.ascending hp) fun a ha => ?_
      rcases List.mem_cons.mp ha with rfl | ha
      · exact lt_of_point hp
      · obtain ⟨q, -, -, hq, -⟩ := h.child hp ha
        exact lt_of_point hq

/-- A new point fits into the family. -/
structure Fits (ctx : Context) (parent : Option Nat) (new : Point) : Prop where
  name : ∀ {i : Nat} {p : Point}, ctx.points[i]? = some p → p.name ≠ new.name
  children : new.children = []
  kind : ∀ {i : Nat}, parent = some i → ∃ s polarity, new.kind = .conditional i s polarity
  parent : ∀ {i : Nat} {s : Splitter} {polarity : Bool}, new.kind = .conditional i s polarity →
    parent = some i ∧ ∃ p : Point, ctx.points[i]? = some p ∧ new.name = childName p.name s polarity
  first : ∀ {i : Nat} {s : Splitter}, new.kind = .conditional i s true →
    ∃ (l : Nat) (p : Point), ctx.points[l]? = some p ∧ p.kind = .conditional i s false ∧
      p.catalog = new.catalog
  indexed : new.catalog.IsIndexed

/-- There is only one child of a parent for a condition and a polarity. -/
theorem WellFormed.child_unique {ctx : Context} (h : ctx.WellFormed) {i l r : Nat} {p q : Point}
    {s : Splitter} {polarity : Bool} (hp : ctx.points[l]? = some p) (hq : ctx.points[r]? = some q)
    (hkind : p.kind = .conditional i s polarity) (hkind' : q.kind = .conditional i s polarity) :
    l = r := by
  obtain ⟨parent, hparent, -, hname⟩ := h.parent hp hkind
  obtain ⟨parent', hparent', -, hname'⟩ := h.parent hq hkind'
  rw [hparent] at hparent'
  cases hparent'
  exact h.names hp hq (hname.trans hname'.symm)

theorem WellFormed.adds {ctx ctx' : Context} {parent : Option Nat} {new : Point}
    (h : ctx.WellFormed) (hfits : ctx.Fits parent new) (k : ctx.Adds parent new ctx') :
    ctx'.WellFormed where
  names hi hj hname := by
    rcases k.source hi with ⟨rfl, rfl⟩ | ⟨p, hp, hpi⟩ <;>
      rcases k.source hj with ⟨rfl, rfl⟩ | ⟨q, hq, hqj⟩
    · rfl
    · exact absurd (hname.trans hqj.name).symm (hfits.name hq)
    · exact absurd (hpi.name.symm.trans hname) (hfits.name hp)
    · exact h.names hp hq (by rw [← hpi.name, ← hqj.name, hname])
  child := (h.isForest.adds hfits.children hfits.kind k).child
  ascending := (h.isForest.adds hfits.children hfits.kind k).ascending
  parent hc hkind := by
    rcases k.source hc with ⟨rfl, rfl⟩ | ⟨q, hq, hqc⟩
    · obtain ⟨rfl, p, hp, hname⟩ := hfits.parent hkind
      obtain ⟨p', hp', hpp⟩ := k.kept hp
      exact ⟨p', hp', hpp.mem_children.mpr (.inr ⟨rfl, rfl⟩), by rw [hpp.name, hname]⟩
    · obtain ⟨p, hp, hchild, hname⟩ := h.parent hq (by rw [← hqc.kind, hkind])
      obtain ⟨p', hp', hpp⟩ := k.kept hp
      exact ⟨p', hp', hpp.mem_children.mpr (.inl hchild), by rw [hqc.name, hpp.name, hname]⟩
  first hc hkind := by
    rcases k.source hc with ⟨rfl, rfl⟩ | ⟨q, hq, hqc⟩
    · obtain ⟨l, p, hp, hfirst, -⟩ := hfits.first hkind
      obtain ⟨p', hp', hpp⟩ := k.kept hp
      exact ⟨l, p', hp', hpp.kind.trans hfirst⟩
    · obtain ⟨l, p, hp, hfirst⟩ := h.first hq (by rw [← hqc.kind, hkind])
      obtain ⟨p', hp', hpp⟩ := k.kept hp
      exact ⟨l, p', hp', hpp.kind.trans hfirst⟩
  indexed hi := by
    rcases k.source hi with ⟨rfl, rfl⟩ | ⟨p, hp, hpi⟩
    · exact hfits.indexed
    · rw [hpi.catalog]
      exact h.indexed hp
  alike hl hr hfirst hsecond := by
    rcases k.source hl with ⟨rfl, rfl⟩ | ⟨p, hp, hpl⟩ <;>
      rcases k.source hr with ⟨rfl, rfl⟩ | ⟨q, hq, hqr⟩
    · rfl
    · -- the new point would be a second first child
      rw [hqr.kind] at hsecond
      obtain ⟨l, p, hp, hfirst'⟩ := h.first hq hsecond
      obtain ⟨-, parent, hparent, hname⟩ := hfits.parent hfirst
      obtain ⟨parent', hparent', -, hname'⟩ := h.parent hp hfirst'
      rw [hparent] at hparent'
      cases hparent'
      exact absurd (hname'.trans hname.symm) (hfits.name hp)
    · rw [hpl.kind] at hfirst
      obtain ⟨l, p', hp', hfirst', hcatalog⟩ := hfits.first hsecond
      obtain rfl := h.child_unique hp hp' hfirst hfirst'
      rw [hp] at hp'
      cases hp'
      rw [hpl.catalog, hcatalog]
    · rw [hpl.kind] at hfirst
      rw [hqr.kind] at hsecond
      rw [hpl.catalog, hqr.catalog]
      exact h.alike hp hq hfirst hsecond

/-- A point at the end that no point is the parent of. -/
theorem adds_alone (ctx : Context) (new : Point) :
    ctx.Adds none new { ctx with points := ctx.points ++ [new] } where
  scope := rfl
  bridge := rfl
  created := List.getElem?_concat_length
  kept hp :=
    ⟨_, by rwa [List.getElem?_append_left (lt_of_point hp)], rfl, rfl, rfl, rfl, by simp, rfl, rfl, rfl⟩
  source {i q} hq := by
    rcases Nat.lt_or_ge i ctx.points.length with hlt | hge
    · rw [List.getElem?_append_left hlt] at hq
      exact .inr ⟨q, hq, rfl, rfl, rfl, rfl, by simp, rfl, rfl, rfl⟩
    · have hlast := (List.getElem?_eq_some_iff.mp hq).1
      simp only [List.length_append, List.length_singleton] at hlast
      obtain rfl : i = ctx.points.length := by omega
      simp only [List.getElem?_concat_length, Option.some.injEq] at hq
      exact .inl ⟨rfl, hq.symm⟩

/-- A point at the end becomes a child of another. -/
theorem Adds.adopted {ctx ctx' : Context} {new p : Point} {id : Nat} (k : ctx.Adds none new ctx')
    (hp : ctx.points[id]? = some p) :
    ctx.Adds (some id) new { ctx' with
      points := ctx'.points.set id { p with children := p.children ++ [ctx.points.length] } } := by
  obtain ⟨p', hp', hpp⟩ := k.kept hp
  have hlt : id < ctx'.points.length := lt_of_point hp'
  have hne : id ≠ ctx.points.length := Nat.ne_of_lt (lt_of_point hp)
  refine ⟨k.scope, k.bridge, ?_, fun {i q} hq => ?_, fun {i q} hq => ?_⟩
  · rw [List.getElem?_set_ne hne]
    exact k.created
  · by_cases hid : id = i
    · subst hid
      rw [hp] at hq
      cases hq
      exact ⟨_, List.getElem?_set_self hlt, rfl, rfl, rfl, rfl, by simp, rfl, rfl, rfl⟩
    · obtain ⟨q', hq', hqq⟩ := k.kept hq
      have hchildren := hqq.children
      refine ⟨q', by rwa [List.getElem?_set_ne hid], { hqq with children := ?_ }⟩
      simpa [hid] using hchildren
  · by_cases hid : id = i
    · subst hid
      simp only [List.getElem?_set_self hlt, Option.some.injEq] at hq
      subst hq
      exact .inr ⟨p, hp, rfl, rfl, rfl, rfl, by simp, rfl, rfl, rfl⟩
    · rw [List.getElem?_set_ne hid] at hq
      rcases k.source hq with hnew | ⟨q', hq', hqq⟩
      · exact .inl hnew
      · have hchildren := hqq.children
        refine .inr ⟨q', hq', { hqq with children := ?_ }⟩
        simpa [hid] using hchildren

/-- A child is added unless its name is taken or there is no such parent. -/
theorem addChild_cases (id : Nat) (s : Splitter) (polarity : Bool) (ctx : Context) :
    (∃ e, (addChild id s polarity).exec ctx = (.error e, ctx)) ∨
      ∃ p ctx', ctx.points[id]? = some p ∧
        (∀ {i : Nat} {q : Point}, ctx.points[i]? = some q → q.name ≠ childName p.name s polarity) ∧
        (addChild id s polarity).exec ctx = (.ok ctx.points.length, ctx') ∧
        ctx.Adds (some id) (p.child id s polarity) ctx' := by
  simp only [addChild, exec_bind, exec_get, exec_lift]
  cases hpoint : ctx.point id with
  | error e => exact .inl ⟨e, rfl⟩
  | ok p =>
    have hp := point_ok hpoint
    rcases addPoint_cases (p.child id s polarity) ctx with ⟨e, hadd⟩ | ⟨hname, hadd⟩
    · exact .inl ⟨e, by simp [hadd]⟩
    · have hadds := adds_alone ctx (p.child id s polarity)
      have hp' : (ctx.points ++ [p.child id s polarity])[id]? = some p := by
        rwa [List.getElem?_append_left (lt_of_point hp)]
      refine .inr ⟨p, _, hp, hname, ?_, hadds.adopted hp⟩
      have hat := fun step : Update Point Unit => exec_atPoint_some
        (show ({ ctx with points := ctx.points ++ [p.child id s polarity] } : Context).points[id]? =
          some p from hp') step
      simp only [hadd, hat]
      rfl

theorem IsForest.addChild {ctx : Context} (h : ctx.IsForest) (id : Nat) (s : Splitter)
    (polarity : Bool) : ((addChild id s polarity).exec ctx).2.IsForest := by
  rcases addChild_cases id s polarity ctx with ⟨e, hfail⟩ | ⟨p, ctx', hp, -, hadd, hadds⟩
  · rw [hfail]
    exact h
  · rw [hadd]
    exact h.adds rfl (by rintro i ⟨⟩; exact ⟨s, polarity, rfl⟩) hadds

/-- The two children of a condition fit in one after the other. -/
theorem WellFormed.split {ctx : Context} (h : ctx.WellFormed) (id : Nat) (s : Splitter) :
    (exec (do
      let first ← addChild id s false
      let second ← addChild id s true
      return [first, second]) ctx).2.WellFormed := by
  rcases addChild_cases id s false ctx with ⟨e, hfail⟩ | ⟨p, ctx₁, hp, hfree, hfirst, hadds⟩
  · rw [exec_bind_error hfail]
    exact h
  rw [exec_bind_ok hfirst]
  have hformed : ctx₁.WellFormed := by
    have hindexed : (p.child id s false).catalog.IsIndexed := (h.indexed hp :)
    refine h.adds ⟨hfree, rfl, ?_, ?_, ?_, hindexed⟩ hadds
    · rintro i ⟨⟩
      exact ⟨s, false, rfl⟩
    · rintro i t polarity ⟨⟩
      exact ⟨rfl, p, hp, rfl⟩
    · rintro i t ⟨⟩
  rcases addChild_cases id s true ctx₁ with ⟨e, hfail⟩ | ⟨q, ctx₂, hq, hfree, hsecond, hadds₂⟩
  · rw [exec_bind_error hfail]
    exact hformed
  rw [exec_bind_ok hsecond]
  obtain ⟨p', hp', hpp⟩ := hadds.kept hp
  obtain rfl : p' = q := by simpa [hp'] using hq
  have hindexed : (p'.child id s true).catalog.IsIndexed := (hformed.indexed hq :)
  refine hformed.adds ⟨hfree, rfl, ?_, ?_, ?_, hindexed⟩ hadds₂
  · rintro i ⟨⟩
    exact ⟨s, true, rfl⟩
  · rintro i t polarity ⟨⟩
    exact ⟨rfl, p', hq, rfl⟩
  · rintro i t ⟨⟩
    exact ⟨_, _, hadds.created, rfl, hpp.catalog.symm⟩

end Adding

/-! ## Growth -/

section Growth

open Point (Kin kin_refl)

/-- The two children of a condition have the same ancestors. -/
theorem WellFormed.descendant_of_sibling {ctx : Context} (h : ctx.WellFormed) {i l r : Nat}
    {p q : Point} {s t : Splitter} {b c : Bool} (hp : ctx.points[l]? = some p)
    (hq : ctx.points[r]? = some q) (hkind : p.kind = .conditional i s b)
    (hkind' : q.kind = .conditional i t c) {generations id : Nat}
    (hl : l ∈ ctx.descendantsWithin generations id) :
    r ∈ ctx.descendantsWithin generations id := by
  induction generations generalizing id with
  | zero => simp [descendantsWithin] at hl
  | succ generations ih =>
    obtain ⟨parent, child, hparent, hchild, rfl | hl⟩ := mem_descendantsWithin_succ.mp hl
    · obtain rfl := h.parent_of_mem_children hparent hchild hp hkind
      obtain ⟨hr, -⟩ := h.mem_children_of_kind hparent hq hkind'
      exact mem_descendantsWithin_succ.mpr ⟨parent, r, hparent, hr, .inl rfl⟩
    · exact mem_descendantsWithin_succ.mpr ⟨parent, child, hparent, hchild, .inr (ih hl)⟩

/-- Where the variables of a point are given to its descendants, the two children of a condition
get them together. -/
theorem WellFormed.handDown {ctx : Context} (h : ctx.WellFormed) {id : Nat} {p : Point}
    (hp : ctx.points[id]? = some p) : (ctx.handDown p (ctx.descendants id)).WellFormed := by
  have hmoves : Moves Kin ctx (ctx.handDown p (ctx.descendants id)) :=
    moves_handDown kin_refl fun _ _ q _ => ⟨rfl, rfl, rfl⟩
  have hcatalog {i : Nat} {q q' : Point} (hq : ctx.points[i]? = some q)
      (hq' : (ctx.handDown p (ctx.descendants id)).points[i]? = some q') :
      q'.catalog = if i ∈ ctx.descendants id then p.catalog else q.catalog := by
    rw [getElem?_handDown, hq] at hq'
    split at hq' <;> cases hq' <;> simp_all [Point.inherit]
  refine h.moves_kin hmoves (fun {i q} hq => ?_) fun {i l r q q' s} hl hr hfirst hsecond => ?_
  · obtain ⟨q₀, hq₀, -⟩ := hmoves.source hq
    rw [hcatalog hq₀ hq]
    split
    · exact h.indexed hp
    · exact h.indexed hq₀
  · obtain ⟨p₀, hp₀, hp⟩ := hmoves.source hl
    obtain ⟨q₀, hq₀, hq⟩ := hmoves.source hr
    rw [hp.kind] at hfirst
    rw [hq.kind] at hsecond
    have hboth : l ∈ ctx.descendants id ↔ r ∈ ctx.descendants id :=
      ⟨h.descendant_of_sibling hp₀ hq₀ hfirst hsecond,
        h.descendant_of_sibling hq₀ hp₀ hsecond hfirst⟩
    rw [hcatalog hp₀ hl, hcatalog hq₀ hr, h.alike hp₀ hq₀ hfirst hsecond]
    simp only [hboth]

theorem WellFormed.grows {ctx ctx' : Context} (h : ctx.WellFormed) {id : Nat} {α : Type}
    {r : Except Error α} (k : ctx.GrowsAt id (r, ctx')) : ctx'.WellFormed := by
  cases k with
  | failed e => exact h
  | still a hp hgrown hsteady => exact h.moves (moves_set Point.akin_refl hp hgrown.akin)
  | @shared p q a hp hgrown hfollow =>
    have hset := h.moves (moves_set Point.akin_refl hp hgrown.akin)
    have hq : ({ ctx with points := ctx.points.set id q } : Context).points[id]? = some q :=
      List.getElem?_set_self (lt_of_point hp)
    have hshared := hset.handDown hq
    rw [descendants_set hp hgrown.children] at hshared
    exact hshared

end Growth

/-! ## Sessions -/

section Sessions

open Point (akin_refl)

/-- Each splitter brings both its children or leaves the first one without a second. -/
theorem wellFormed_split (id : Nat) (splitters : List Splitter) :
    Keeps (fun ctx ctx' : Context => ctx.WellFormed → ctx'.WellFormed) (split id splitters) := by
  have hrefl : ∀ ctx : Context, ctx.WellFormed → ctx.WellFormed := fun _ h => h
  have htrans : ∀ a b c : Context, (a.WellFormed → b.WellFormed) → (b.WellFormed → c.WellFormed) →
      a.WellFormed → c.WellFormed := fun _ _ _ h k ha => k (h ha)
  refine keeps_bind htrans (keeps_mapM htrans hrefl _ fun s _ => ?_) fun _ => keeps_pure hrefl _
  refine keeps_bind htrans hrefl fun ctx => keeps_bind htrans (keeps_lift hrefl _) fun p => ?_
  split
  · exact fun ctx h => h.split id s
  · exact keeps_pure hrefl _

theorem WellFormed.changes {ctx ctx' : Context} {a : Action} (h : ctx.WellFormed)
    (k : Changes Point.Akin ctx a ctx') : ctx'.WellFormed := by
  cases k with
  | moved k => exact h.moves k
  | grown k => exact h.grows k
  | added vars hfree =>
    refine h.adds ⟨hfree, rfl, ?_, ?_, ?_, Catalog.isIndexed_ofList vars⟩ (adds_alone ctx _)
    · rintro i ⟨⟩
    · rintro i s polarity ⟨⟩
    · rintro i s ⟨⟩
  | split id splitters => exact wellFormed_split id splitters ctx h
  | @contrasted id p _ hp =>
    exact h.moves (moves_set akin_refl hp (annotated_contrasted ctx p).steady.akin)
  | @marked id p included _ hp =>
    have hset := h.moves (moves_set akin_refl hp
      (tagged_mark p (ctx.redundancyPass id p included).2.1).steady.akin)
    exact ⟨hset.names, hset.child, hset.ascending, hset.parent, hset.first, hset.indexed, hset.alike⟩

theorem wellFormed_after {ctx : Context} (hempty : ctx.points = []) (acts : List Action) :
    (ctx.after acts).WellFormed :=
  after_induction (fun ctx a h => h.changes (changes_perform ctx a)) (.of_empty hempty) acts

theorem Attained.wellFormed {ctx : Context} (h : ctx.Attained) : ctx.WellFormed := by
  obtain ⟨start, acts, hempty, rfl⟩ := h
  exact wellFormed_after hempty acts

/-- The two children of a condition have the same variables, whichever is which. -/
theorem WellFormed.catalog_eq_of_halves {ctx : Context} (h : ctx.WellFormed) {parent l r : Nat}
    {p q : Point} {s : Splitter} {polarity : Bool} (hp : ctx.points[l]? = some p)
    (hq : ctx.points[r]? = some q) (hkind : p.kind = .conditional parent s polarity)
    (hkind' : q.kind = .conditional parent s !polarity) : p.catalog = q.catalog := by
  cases polarity with
  | false => exact h.alike hp hq hkind hkind'
  | true => exact (h.alike hq hp hkind' hkind).symm

end Sessions

end Context

end LikelyInvariants
