import LikelyInvariants.Proofs.Family

/-!
# Siblings

A splitter is to give a point two children, one for each way its condition can turn out. The two
are added one after the other, and a child is added only if no point has its name. So a splitter
may be left with its first child alone: when its second child would get a name that some other point
has. The children of a point are a sequence of such litters of two and of one
(`Context.Attained.littered`), and a splitter with a second child has the first one just before it.

What one call adds is told by the litters too. The call stops at the first child whose name is
taken; what it added before, it leaves (`Context.split_cases`).
-/

namespace LikelyInvariants

open Update

/-- The children that a splitter is to have, in order. -/
def Splitter.halves (s : Splitter) : List (Splitter × Bool) := [(s, false), (s, true)]

namespace Context

/-! ## Births -/

section Births

variable {ctx ctx' ctx'' : Context} {id : Nat}

/-- A point got children, which are new and stand at the end. -/
structure Bears (ctx : Context) (id : Nat) (born : List (Splitter × Bool)) (ctx' : Context) :
    Prop where
  length : ctx'.points.length = ctx.points.length + born.length
  kept : ∀ {i : Nat} {p : Point}, ctx.points[i]? = some p → ∃ q, ctx'.points[i]? = some q ∧
    q.name = p.name ∧ q.kind = p.kind ∧ q.catalog = p.catalog ∧
    q.children = p.children ++ if i = id then List.range' ctx.points.length born.length else []
  born : ∀ {k : Nat} {s : Splitter} {polarity : Bool}, born[k]? = some (s, polarity) →
    ∃ q, ctx'.points[ctx.points.length + k]? = some q ∧ q.kind = .conditional id s polarity ∧
      q.children = []

namespace Bears

theorem refl (ctx : Context) (id : Nat) : ctx.Bears id [] ctx where
  length := rfl
  kept hp := ⟨_, hp, rfl, rfl, rfl, by simp⟩
  born hk := by simp at hk

theorem trans {first second : List (Splitter × Bool)} (h : ctx.Bears id first ctx')
    (k : ctx'.Bears id second ctx'') (hid : id < ctx.points.length) :
    ctx.Bears id (first ++ second) ctx'' := by
  refine ⟨?_, fun {i p} hp => ?_, fun {j s polarity} hj => ?_⟩
  · rw [k.length, h.length, List.length_append]
    omega
  · obtain ⟨q, hq, hname, hkind, hcatalog, hchildren⟩ := h.kept hp
    obtain ⟨r, hr, hname', hkind', hcatalog', hchildren'⟩ := k.kept hq
    refine ⟨r, hr, hname'.trans hname, hkind'.trans hkind, hcatalog'.trans hcatalog, ?_⟩
    rw [hchildren', hchildren, h.length, List.append_assoc]
    by_cases hi : i = id
    · simp only [if_pos hi, List.length_append, List.range'_append_1]
    · simp only [if_neg hi, List.append_nil]
  · by_cases hlt : j < first.length
    · rw [List.getElem?_append_left hlt] at hj
      obtain ⟨q, hq, hkind, hchildren⟩ := h.born hj
      obtain ⟨r, hr, -, hkind', -, hchildren'⟩ := k.kept hq
      have hne : ctx.points.length + j ≠ id := by omega
      exact ⟨r, hr, hkind'.trans hkind, by rw [hchildren', hchildren, if_neg hne]; rfl⟩
    · have hge : first.length ≤ j := Nat.le_of_not_lt hlt
      rw [List.getElem?_append_right hge] at hj
      obtain ⟨q, hq, hkind, hchildren⟩ := k.born hj
      have hsum : ctx'.points.length + (j - first.length) = ctx.points.length + j := by
        rw [h.length]
        omega
      exact ⟨q, hsum ▸ hq, hkind, hchildren⟩

/-- A point of the new context was there before or is one of the children. -/
theorem source {born : List (Splitter × Bool)} (h : ctx.Bears id born ctx') {i : Nat} {q : Point}
    (hq : ctx'.points[i]? = some q) : (∃ p, ctx.points[i]? = some p) ∨
      ∃ k s polarity, i = ctx.points.length + k ∧ born[k]? = some (s, polarity) := by
  have hlt : i < ctx.points.length + born.length := h.length ▸ lt_of_point hq
  by_cases hold : i < ctx.points.length
  · exact .inl ⟨_, List.getElem?_eq_getElem hold⟩
  · have hk : i - ctx.points.length < born.length := by omega
    have hsum : i = ctx.points.length + (i - ctx.points.length) := by omega
    exact .inr ⟨_, _, _, hsum, List.getElem?_eq_getElem hk⟩

end Bears

theorem Adds.length_eq {parent : Option Nat} {new : Point} (k : ctx.Adds parent new ctx') :
    ctx'.points.length = ctx.points.length + 1 := by
  have hnew : ctx.points.length < ctx'.points.length := lt_of_point k.created
  have hlast : ctx'.points.length - 1 < ctx'.points.length := by omega
  rcases k.source (List.getElem?_eq_getElem hlast) with ⟨hlength, -⟩ | ⟨p, hp, -⟩
  · omega
  · have hlt := lt_of_point hp
    omega

theorem Adds.bears {p : Point} {s : Splitter} {polarity : Bool}
    (k : ctx.Adds (some id) (p.child id s polarity) ctx') : ctx.Bears id [(s, polarity)] ctx' where
  length := k.length_eq
  kept {i p} hp := by
    obtain ⟨q, hq, hgains⟩ := k.kept hp
    refine ⟨q, hq, hgains.name, hgains.kind, hgains.catalog, ?_⟩
    rw [hgains.children]
    simp [eq_comm]
  born {j t b} hj := by
    obtain ⟨rfl, hx⟩ : j = 0 ∧ (t, b) = (s, polarity) := by
      cases j <;> simp_all
    cases hx
    exact ⟨_, k.created, rfl, rfl⟩

end Births

/-! ## Names that are taken -/

section Taken

/-- A point has the name of the child for a condition and a polarity. -/
def IsTaken (ctx : Context) (parent : String) (s : Splitter) (polarity : Bool) : Prop :=
  ∃ (i : Nat) (q : Point), ctx.points[i]? = some q ∧ q.name = childName parent s polarity

/-- Nothing but its name keeps a point from being added. -/
theorem taken_of_addPoint {new : Point} {ctx ctx' : Context} {e : Error}
    (h : (addPoint new).exec ctx = (.error e, ctx')) : e = .duplicatePoint new.name ∧
      ∃ (i : Nat) (q : Point), ctx.points[i]? = some q ∧ q.name = new.name := by
  simp only [addPoint, exec_bind, exec_get] at h
  by_cases htaken : (ctx.lookup? new.name).isSome
  · have he : e = .duplicatePoint new.name := by
      simp only [htaken, if_true, exec_bind, exec_throw, Prod.mk.injEq, Except.error.injEq] at h
      exact h.1.symm
    unfold lookup? at htaken
    rw [List.findIdx?_isSome, List.any_eq_true] at htaken
    obtain ⟨q, hq, hname⟩ := htaken
    obtain ⟨i, hi⟩ := List.getElem?_of_mem hq
    exact ⟨he, i, q, hi, by simpa using hname⟩
  · simp [htaken] at h

variable {ctx : Context} {id : Nat} {p : Point}

/-- To a point that exists a child is added, unless its name is taken. -/
theorem exec_addChild (hp : ctx.points[id]? = some p) (s : Splitter) (polarity : Bool) :
    (ctx.IsTaken p.name s polarity ∧ (addChild id s polarity).exec ctx =
      (.error (.duplicatePoint (childName p.name s polarity)), ctx)) ∨
    ∃ ctx', ¬ctx.IsTaken p.name s polarity ∧
      (addChild id s polarity).exec ctx = (.ok ctx.points.length, ctx') ∧
      ctx.Bears id [(s, polarity)] ctx' := by
  rcases addChild_cases id s polarity ctx with ⟨e, hfail⟩ | ⟨q, ctx', hq, hfree, hadd, hadds⟩
  · left
    have hpoint : ctx.point id = .ok p := by simp [point, hp]
    have hnew := hfail
    simp only [addChild, exec_bind, exec_get, exec_lift, hpoint] at hnew
    rcases addPoint_cases (p.child id s polarity) ctx with ⟨e', hadd⟩ | ⟨-, hadd⟩
    · obtain ⟨rfl, htaken⟩ := taken_of_addPoint hadd
      rw [hadd] at hnew
      cases hnew
      exact ⟨htaken, hfail⟩
    · -- a new point can always be made a child
      have hp' : (ctx.points ++ [p.child id s polarity])[id]? = some p := by
        rwa [List.getElem?_append_left (lt_of_point hp)]
      have hat := fun step : Update Point Unit => exec_atPoint_some
        (show ({ ctx with points := ctx.points ++ [p.child id s polarity] } : Context).points[id]? =
          some p from hp') step
      simp [hadd, hat] at hnew
  · right
    rw [hp] at hq
    cases hq
    refine ⟨ctx', ?_, hadd, hadds.bears⟩
    rintro ⟨i, r, hr, hname⟩
    exact hfree hr hname

/-- Adds both children for a splitter. -/
def addHalves (id : Nat) (s : Splitter) : Update Context (List Nat) := do
  let first ← addChild id s false
  let second ← addChild id s true
  return [first, second]

/-- A splitter gets both its children, or it stops before the first or before the second. -/
theorem exec_addHalves (hp : ctx.points[id]? = some p) (s : Splitter) :
    (ctx.IsTaken p.name s false ∧ (addHalves id s).exec ctx =
      (.error (.duplicatePoint (childName p.name s false)), ctx)) ∨
    (∃ ctx', ¬ctx.IsTaken p.name s false ∧ ctx'.IsTaken p.name s true ∧
      (addHalves id s).exec ctx = (.error (.duplicatePoint (childName p.name s true)), ctx') ∧
      ctx.Bears id [(s, false)] ctx') ∨
    ∃ ctx', (addHalves id s).exec ctx =
        (.ok [ctx.points.length, ctx.points.length + 1], ctx') ∧
      ctx.Bears id s.halves ctx' := by
  unfold addHalves
  rcases exec_addChild hp s false with ⟨htaken, hfail⟩ | ⟨ctx₁, hfree, hfirst, hbears⟩
  · exact .inl ⟨htaken, exec_bind_error hfail⟩
  obtain ⟨q, hq, hname, -⟩ := hbears.kept hp
  rcases exec_addChild hq s true with ⟨htaken, hfail⟩ | ⟨ctx₂, -, hsecond, hbears'⟩
  · rw [hname] at htaken hfail
    exact .inr (.inl ⟨ctx₁, hfree, htaken, by rw [exec_bind_ok hfirst, exec_bind_error hfail],
      hbears⟩)
  · refine .inr (.inr ⟨ctx₂, ?_, hbears.trans hbears' (lt_of_point hp)⟩)
    rw [exec_bind_ok hfirst, exec_bind_ok hsecond, hbears.length]
    rfl

/-- How it ends when a point is to get both children for each splitter. All are added, or the
request stops before the first child whose name is taken, which may be the second of its splitter. -/
inductive SplitsInto (ctx : Context) (id : Nat) (parent : String) (splitters : List Splitter) :
    Except Error (List Nat) × Context → Prop
  | all {ctx' : Context} (h : ctx.Bears id (splitters.flatMap Splitter.halves) ctx') :
      SplitsInto ctx id parent splitters
        (.ok (List.range' ctx.points.length (2 * splitters.length)), ctx')
  | stopped {ctx' : Context} {done rest : List Splitter} {s : Splitter} {polarity : Bool}
      (hsplitters : splitters = done ++ s :: rest)
      (h : ctx.Bears id (done.flatMap Splitter.halves ++ if polarity then [(s, false)] else []) ctx')
      (htaken : ctx'.IsTaken parent s polarity) :
      SplitsInto ctx id parent splitters
        (.error (.duplicatePoint (childName parent s polarity)), ctx')

theorem SplitsInto.cons {ctx₁ ctx' : Context} {parent : String} {s : Splitter}
    {splitters : List Splitter} {r : Except Error (List Nat)} (hid : id < ctx.points.length)
    (h : ctx.Bears id s.halves ctx₁) (k : ctx₁.SplitsInto id parent splitters (r, ctx')) :
    ctx.SplitsInto id parent (s :: splitters)
      (r.map ([ctx.points.length, ctx.points.length + 1] ++ ·), ctx') := by
  cases k with
  | all hbears =>
    have hnumbers : [ctx.points.length, ctx.points.length + 1] ++
        List.range' ctx₁.points.length (2 * splitters.length) =
          List.range' ctx.points.length (2 * (s :: splitters).length) := by
      have hlength : ctx₁.points.length = ctx.points.length + 2 := h.length
      have hpair : [ctx.points.length, ctx.points.length + 1] = List.range' ctx.points.length 2 := rfl
      rw [hlength, hpair, List.range'_append_1, List.length_cons]
      congr 1
      omega
    rw [map_ok, hnumbers]
    exact .all (h.trans hbears hid)
  | @stopped _ done rest t polarity hsplitters hbears htaken =>
    have hmore := h.trans hbears hid
    rw [← List.append_assoc] at hmore
    have hsplitters' : s :: splitters = (s :: done) ++ t :: rest := by rw [hsplitters]; rfl
    exact .stopped hsplitters' hmore htaken

theorem exec_split_cons (hp : ctx.points[id]? = some p) (s : Splitter) (splitters : List Splitter) :
    (split id (s :: splitters)).exec ctx = if s.isValidFor p.catalog then
      exec (do
        let both ← addHalves id s
        let more ← split id splitters
        return both ++ more) ctx
    else (split id splitters).exec ctx := by
  have hpoint : ctx.point id = .ok p := by simp [point, hp]
  simp only [split, List.mapM_cons, exec_bind, exec_get, exec_lift, hpoint]
  by_cases hvalid : s.isValidFor p.catalog
  · have hboth : (do
        let first ← addChild id s false
        let second ← addChild id s true
        return [first, second]) = addHalves id s := rfl
    simp only [hvalid, if_true, hboth]
    rcases (addHalves id s).exec ctx with ⟨e | both, ctx₁⟩
    · rfl
    dsimp only
    generalize exec (List.mapM _ splitters) ctx₁ = rest
    rcases rest with ⟨e | lists, ctx₂⟩ <;> rfl
  · simp only [hvalid, Bool.false_eq_true, if_false, exec_pure]
    generalize exec (List.mapM _ splitters) ctx = rest
    rcases rest with ⟨e | lists, ctx₁⟩ <;> rfl

/-- The splitters that are about a variable of the point get their children, one after the other. -/
theorem splitsInto_split (hp : ctx.points[id]? = some p) (splitters : List Splitter) :
    ctx.SplitsInto id p.name (splitters.filter (·.isValidFor p.catalog))
      ((split id splitters).exec ctx) := by
  induction splitters generalizing ctx p with
  | nil => exact .all (.refl ctx id)
  | cons s splitters ih =>
    rw [exec_split_cons hp]
    by_cases hvalid : s.isValidFor p.catalog
    · rw [if_pos hvalid, List.filter_cons, if_pos hvalid]
      rcases exec_addHalves hp s with ⟨htaken, hexec⟩ | ⟨ctx', -, htaken, hexec, hbears⟩ |
        ⟨ctx₁, hexec, hbears⟩
      · rw [exec_bind_error hexec]
        exact .stopped (List.nil_append _).symm (.refl ctx id) htaken
      · rw [exec_bind_error hexec]
        exact .stopped (List.nil_append _).symm hbears htaken
      · obtain ⟨q, hq, hname, -, hcatalog, -⟩ := hbears.kept hp
        have hrest := ih hq
        rw [hname, hcatalog] at hrest
        rw [exec_bind_ok hexec, bind_pure_comp, exec_map]
        exact hrest.cons (lt_of_point hp) hbears
    · rw [if_neg hvalid, List.filter_cons, if_neg hvalid]
      exact ih hp

end Taken

/-! ## Litters -/

section Litters

/-- What a splitter leaves among the children of a point: its two children or, if the name of the
second one is that of another point, the first one. -/
inductive IsLitter (ctx : Context) (i : Nat) (parent : String) : List Nat → Prop
  | both {l r : Nat} {p q : Point} {s : Splitter} (hp : ctx.points[l]? = some p)
      (hq : ctx.points[r]? = some q) (hfirst : p.kind = .conditional i s false)
      (hsecond : q.kind = .conditional i s true) : IsLitter ctx i parent [l, r]
  | lone {l j : Nat} {p q : Point} {s : Splitter} (hp : ctx.points[l]? = some p)
      (hq : ctx.points[j]? = some q) (hfirst : p.kind = .conditional i s false)
      (hname : q.name = childName parent s true) (hother : q.kind ≠ .conditional i s true) :
      IsLitter ctx i parent [l]

/-- The children of each point are the litters of its splitters, one after the other. -/
structure Littered (ctx : Context) : Prop where
  litters : ∀ {i : Nat} {p : Point}, ctx.points[i]? = some p →
    ∃ litters : List (List Nat), p.children = litters.flatten ∧
      ∀ litter ∈ litters, ctx.IsLitter i p.name litter

variable {ctx ctx' : Context} {id : Nat} {p : Point}

/-- Points that keep their names and their parents stay in their litters. -/
theorem IsLitter.mono {i : Nat} {parent : String} {litter : List Nat}
    (h : ctx.IsLitter i parent litter)
    (hkept : ∀ {j : Nat} {p : Point}, ctx.points[j]? = some p →
      ∃ q, ctx'.points[j]? = some q ∧ q.name = p.name ∧ q.kind = p.kind) :
    ctx'.IsLitter i parent litter := by
  cases h with
  | both hp hq hfirst hsecond =>
    obtain ⟨p', hp', -, hkind⟩ := hkept hp
    obtain ⟨q', hq', -, hkind'⟩ := hkept hq
    exact .both hp' hq' (hkind.trans hfirst) (hkind'.trans hsecond)
  | lone hp hq hfirst hname hother =>
    obtain ⟨p', hp', -, hkind⟩ := hkept hp
    obtain ⟨q', hq', hname', hkind'⟩ := hkept hq
    exact .lone hp' hq' (hkind.trans hfirst) (hname'.trans hname) (by rwa [hkind'])

namespace Littered

theorem of_empty (h : ctx.points = []) : ctx.Littered := by
  constructor
  simp [h]

theorem moves (h : ctx.Littered) (k : Moves Point.Kin ctx ctx') : ctx'.Littered := by
  constructor
  intro i q hq
  obtain ⟨p, hp, hkin⟩ := k.source hq
  obtain ⟨litters, hchildren, hlitters⟩ := h.litters hp
  refine ⟨litters, hkin.children.trans hchildren, fun litter hmem => ?_⟩
  rw [hkin.name]
  refine (hlitters litter hmem).mono fun hj => ?_
  obtain ⟨r, hr, hkin'⟩ := k.point hj
  exact ⟨r, hr, hkin'.name, hkin'.kind⟩

/-- A point that stands alone has no children. -/
theorem adds_alone {new : Point} (h : ctx.Littered) (hchildren : new.children = [])
    (k : ctx.Adds none new ctx') : ctx'.Littered := by
  constructor
  intro i q hq
  rcases k.source hq with ⟨-, rfl⟩ | ⟨p, hp, hgains⟩
  · exact ⟨[], hchildren, by simp⟩
  · obtain ⟨litters, hp', hlitters⟩ := h.litters hp
    refine ⟨litters, by simpa [hp'] using hgains.children, fun litter hmem => ?_⟩
    rw [hgains.name]
    refine (hlitters litter hmem).mono fun hj => ?_
    obtain ⟨r, hr, hgains'⟩ := k.kept hj
    exact ⟨r, hr, hgains'.name, hgains'.kind⟩

/-- A point gets one more litter. -/
theorem bears {born : List (Splitter × Bool)} (h : ctx.Littered) (hp : ctx.points[id]? = some p)
    (k : ctx.Bears id born ctx')
    (hlitter : ctx'.IsLitter id p.name (List.range' ctx.points.length born.length)) :
    ctx'.Littered := by
  constructor
  intro i q hq
  rcases k.source hq with ⟨r, hr⟩ | ⟨j, s, polarity, rfl, hj⟩
  · obtain ⟨litters, hchildren, hlitters⟩ := h.litters hr
    obtain ⟨q', hq', hname, -, -, hmore⟩ := k.kept hr
    rw [hq] at hq'
    cases hq'
    have hold : ∀ litter ∈ litters, ctx'.IsLitter i q.name litter := by
      intro litter hmem
      rw [hname]
      refine (hlitters litter hmem).mono fun hj => ?_
      obtain ⟨r', hr', hname', hkind', -⟩ := k.kept hj
      exact ⟨r', hr', hname', hkind'⟩
    by_cases hi : i = id
    · subst hi
      rw [hp] at hr
      cases hr
      refine ⟨litters ++ [List.range' ctx.points.length born.length], ?_, fun litter hmem => ?_⟩
      · rw [hmore, if_pos rfl, hchildren, List.flatten_append, List.flatten_singleton]
      · rcases List.mem_append.mp hmem with hmem | hmem
        · exact hold litter hmem
        · rw [List.mem_singleton.mp hmem, hname]
          exact hlitter
    · exact ⟨litters, by rw [hmore, if_neg hi, List.append_nil, hchildren], hold⟩
  · obtain ⟨q', hq', -, hchildren⟩ := k.born hj
    rw [hq] at hq'
    cases hq'
    exact ⟨[], hchildren, by simp⟩

/-- Where the first child of a splitter can be added, no point is its second child. -/
theorem kind_ne_of_free {ctx' : Context} {s : Splitter} (hformed : ctx.WellFormed)
    (hp : ctx.points[id]? = some p) (hfree : ¬ctx.IsTaken p.name s false)
    (k : ctx.Bears id [(s, false)] ctx') {j : Nat} {q : Point} (hq : ctx'.points[j]? = some q) :
    q.kind ≠ .conditional id s true := by
  intro hkind
  rcases k.source hq with ⟨r, hr⟩ | ⟨i, t, polarity, rfl, hi⟩
  · obtain ⟨q', hq', -, hkind', -⟩ := k.kept hr
    rw [hq] at hq'
    cases hq'
    obtain ⟨l, first, hl, hfirst⟩ := hformed.first hr (hkind'.symm.trans hkind)
    obtain ⟨-, hname⟩ := hformed.mem_children_of_kind hp hl hfirst
    exact hfree ⟨l, first, hl, hname⟩
  · obtain ⟨q', hq', hborn, -⟩ := k.born hi
    rw [hq] at hq'
    cases hq'
    obtain ⟨-, rfl⟩ : i = 0 ∧ polarity = false := by
      cases i <;> simp_all
    rw [hkind] at hborn
    cases hborn

theorem addHalves (h : ctx.Littered) (hformed : ctx.WellFormed) (id : Nat) (s : Splitter) :
    ((addHalves id s).exec ctx).2.Littered := by
  cases hp : ctx.points[id]? with
  | none =>
    rcases addChild_cases id s false ctx with ⟨e, hfail⟩ | ⟨p, ctx', hp', -⟩
    · rw [Context.addHalves, exec_bind_error hfail]
      exact h
    · rw [hp] at hp'
      cases hp'
  | some p =>
    rcases exec_addHalves hp s with ⟨-, hexec⟩ | ⟨ctx', hfree, ⟨j, q, hq, hname⟩, hexec, hbears⟩ |
      ⟨ctx', hexec, hbears⟩
    · rw [hexec]
      exact h
    · rw [hexec]
      obtain ⟨l, hl, hfirst, -⟩ := hbears.born (k := 0) rfl
      have hother := kind_ne_of_free hformed hp hfree hbears hq
      exact h.bears hp hbears (.lone hl hq hfirst hname hother)
    · rw [hexec]
      obtain ⟨l, hl, hfirst, -⟩ := hbears.born (k := 0) rfl
      obtain ⟨r, hr, hsecond, -⟩ := hbears.born (k := 1) rfl
      exact h.bears hp hbears (.both hl hr hfirst hsecond)

end Littered

theorem littered_split (id : Nat) (splitters : List Splitter) :
    Keeps (fun ctx ctx' : Context => ctx.WellFormed ∧ ctx.Littered → ctx'.WellFormed ∧ ctx'.Littered)
      (split id splitters) := by
  have hrefl : ∀ ctx : Context, ctx.WellFormed ∧ ctx.Littered → ctx.WellFormed ∧ ctx.Littered :=
    fun _ h => h
  refine keeps_bind (fun _ _ _ h k ha => k (h ha))
    (keeps_mapM (fun _ _ _ h k ha => k (h ha)) hrefl _ fun s _ => ?_) fun _ => keeps_pure hrefl _
  refine keeps_bind (fun _ _ _ h k ha => k (h ha)) hrefl fun ctx =>
    keeps_bind (fun _ _ _ h k ha => k (h ha)) (keeps_lift hrefl _) fun p => ?_
  split
  · exact fun ctx h => ⟨h.1.split id s, h.2.addHalves h.1 id s⟩
  · exact keeps_pure hrefl _

/-- Points that grow keep their names and their relatives. -/
theorem GrowsAt.kin {α : Type} {r : Except Error α} (k : ctx.GrowsAt id (r, ctx')) :
    Moves Point.Kin ctx ctx' := by
  cases k with
  | failed e => exact moves_refl Point.kin_refl ctx
  | still a hp hgrown hsteady => exact moves_set Point.kin_refl hp hgrown.akin.kin
  | @shared p q a hp hgrown hfollow =>
    refine moves_trans Point.kin_trans _ _ _ (moves_set Point.kin_refl hp hgrown.akin.kin) ?_
    exact moves_handDown Point.kin_refl fun _ _ r _ => ⟨rfl, rfl, rfl⟩

theorem Littered.changes {a : Action} (h : ctx.Littered) (hformed : ctx.WellFormed)
    (k : Changes Point.Akin ctx a ctx') : ctx'.Littered := by
  cases k with
  | moved k => exact h.moves (k.mono fun _ _ => Point.Akin.kin)
  | grown k => exact h.moves k.kin
  | added vars hfree => exact h.adds_alone rfl (Context.adds_alone ctx _)
  | split id splitters => exact (littered_split id splitters ctx ⟨hformed, h⟩).2
  | @contrasted id p _ hp =>
    exact h.moves (moves_set Point.kin_refl hp (annotated_contrasted ctx p).steady.kin)
  | @marked id p included _ hp =>
    have hset := h.moves (moves_set Point.kin_refl hp
      (tagged_mark p (ctx.redundancyPass id p included).2.1).steady.kin)
    refine ⟨fun hi => ?_⟩
    obtain ⟨litters, hchildren, hlitters⟩ := hset.litters hi
    exact ⟨litters, hchildren, fun litter hmem =>
      (hlitters litter hmem).mono fun hj => ⟨_, hj, rfl, rfl⟩⟩

theorem Attained.littered (h : ctx.Attained) : ctx.Littered := by
  obtain ⟨start, acts, hempty, rfl⟩ := h
  have hboth : (start.after acts).WellFormed ∧ (start.after acts).Littered := by
    refine after_induction (P := fun ctx => ctx.WellFormed ∧ ctx.Littered) ?_
      ⟨.of_empty hempty, .of_empty hempty⟩ acts
    intro ctx a ⟨hformed, hlittered⟩
    have hchanges := changes_perform ctx a
    exact ⟨hformed.changes hchanges, hlittered.changes hformed hchanges⟩
  exact hboth.2

/-- **Children come in pairs, up to names that are taken.** In every reachable context the children
of a point are the litters of its splitters: the first and the second child of one splitter, or the
first child alone, while the name of the second is that of another point. A request for children
adds both for each splitter that is about a variable of the point, in order, or it stops at the
first child whose name is taken and leaves the children before it. -/
theorem siblings_unless_taken (h : ctx.Attained) : ctx.Littered ∧
    ∀ (id : Nat) (p : Point) (splitters : List Splitter), ctx.points[id]? = some p →
      ctx.SplitsInto id p.name (splitters.filter (·.isValidFor p.catalog))
        ((split id splitters).exec ctx) :=
  ⟨h.littered, fun _ _ splitters hp => splitsInto_split hp splitters⟩

/-- Two points are added, and the second has the name of a child of the first. -/
def takenName : List Action :=
  [.addPoint "P" [{ name := "x", type := .int }], .addPoint "P;condition=\"x > 0\"" []]

/-- The request stops before the second child of the second splitter. -/
theorem siblings_unless_taken_takenName :
    let ctx := standard.after takenName
    let splitters : List Splitter := [.compare "x" .lt 5, .compare "x" .gt 0]
    ctx.Littered ∧ ctx.SplitsInto 0 "P" splitters ((split 0 splitters).exec ctx) ∧
      ((split 0 splitters).exec ctx).1 = .error (.duplicatePoint "P;condition=\"x > 0\"") ∧
      ((split 0 splitters).exec ctx).2.points.map Point.children = [[2, 3, 4], [], [], [], []] := by
  intro ctx splitters
  obtain ⟨p, hp, hvalid⟩ := Option.map_eq_some_iff.mp
    (show ctx.points[0]?.map (fun p => (p.name, splitters.filter (·.isValidFor p.catalog))) =
      some ("P", splitters) by decide +kernel)
  obtain ⟨hname, hfilter⟩ := Prod.mk.inj hvalid
  have hattained : ctx.Attained := ⟨standard, takenName, rfl, rfl⟩
  obtain ⟨hlittered, hsplits⟩ := siblings_unless_taken hattained
  have hinto := hsplits 0 p splitters hp
  rw [hname, hfilter] at hinto
  exact ⟨hlittered, hinto, rfl, by decide +kernel⟩

/-- A child without its sibling. -/
theorem lone_child :
    let ctx := standard.after (takenName ++ [.split 0 [.compare "x" .gt 0]])
    ctx.Attained ∧ ∃ p, ctx.points[0]? = some p ∧
      ∀ pairs : List (Nat × Nat), p.children ≠ pairs.flatMap fun (l, r) => [l, r] := by
  intro ctx
  obtain ⟨p, hp, hchildren⟩ := Option.map_eq_some_iff.mp
    (show ctx.points[0]?.map Point.children = some [2] by decide +kernel)
  refine ⟨⟨standard, _, rfl, rfl⟩, p, hp, fun pairs heq => ?_⟩
  rw [hchildren] at heq
  have hlength := congrArg List.length heq
  cases pairs with
  | nil => cases heq
  | cons x pairs => simp at hlength

end Litters

end Context

end LikelyInvariants
