import LikelyInvariants.Proofs.Requests

/-!
# What a session does to the points

Every request moves every point by steps, and what is noted about the point in the journal is what
the steps say. A point that a request creates starts fresh. So after a session on a context without
points, each point has come from a fresh one by the steps that the journal has noted about it
(`Context.steps_after`).
-/

namespace LikelyInvariants

open Update

/-! ## Points that may not exist yet -/

/-- A point moves by steps, and it may have been created in between. -/
def Point.Lives : Option Point → List Happening → Option Point → Prop
  | none, hs, none => hs = []
  | none, hs, some q => ∃ p : Point, p.IsFresh ∧ p.Steps hs q
  | some p, hs, some q => p.Steps hs q
  | some _, _, none => False

theorem Point.lives_refl : ∀ o : Option Point, Lives o [] o
  | none => rfl
  | some _ => Steps.start

theorem Point.Lives.trans {o o' o'' : Option Point} {hs ks : List Happening}
    (h : Lives o hs o') (k : Lives o' ks o'') : Lives o (hs ++ ks) o'' := by
  cases o with
  | some p =>
    cases o' with
    | none => exact h.elim
    | some q =>
      cases o'' with
      | none => exact k.elim
      | some r => exact Steps.trans h k
  | none =>
    cases o' with
    | none =>
      obtain rfl : hs = [] := h
      exact k
    | some q =>
      obtain ⟨p, hfresh, hsteps⟩ := h
      cases o'' with
      | none => exact k.elim
      | some r => exact ⟨p, hfresh, hsteps.trans k⟩

/-! ## Contexts -/

namespace Context

/-- Every point moves by the steps that are noted about it. -/
structure Evolves (ctx : Context) (notes : List (Nat × Happening)) (ctx' : Context) : Prop where
  scope : ctx'.scope = ctx.scope
  lives : ∀ id : Nat, Point.Lives ctx.points[id]? (Journal.about notes id) ctx'.points[id]?

/-- Nothing happens to the slices of any point. -/
def Settles (ctx ctx' : Context) : Prop := ctx.Evolves [] ctx'

theorem Evolves.trans {ctx ctx' ctx'' : Context} {notes more : List (Nat × Happening)}
    (h : ctx.Evolves notes ctx') (k : ctx'.Evolves more ctx'') :
    ctx.Evolves (notes ++ more) ctx'' where
  scope := k.scope.trans h.scope
  lives id := by
    rw [Journal.about_append]
    exact (h.lives id).trans (k.lives id)

theorem settles_refl (ctx : Context) : Settles ctx ctx := ⟨rfl, fun _ => Point.lives_refl _⟩

theorem settles_trans (ctx ctx' ctx'' : Context) (h : Settles ctx ctx') (k : Settles ctx' ctx'') :
    Settles ctx ctx'' := Evolves.trans h k

/-- The steps of one point, the others staying as they are. -/
theorem evolves_set {ctx : Context} {id : Nat} {p q : Point} {hs : List Happening}
    (hp : ctx.points[id]? = some p) (hsteps : p.Steps hs q) :
    ctx.Evolves (hs.map (id, ·)) { ctx with points := ctx.points.set id q } := by
  refine ⟨rfl, fun other => ?_⟩
  by_cases heq : id = other
  · subst heq
    rw [Journal.about_map_self, List.getElem?_set_self (lt_of_point hp), hp]
    exact hsteps
  · rw [Journal.about_map_of_ne heq, List.getElem?_set_ne heq]
    exact Point.lives_refl _

/-! ## Requests that leave the slices alone -/

section Silent

open Point (Annotated Tagged tagged_refl)

theorem Moves.settles {ctx ctx' : Context} (h : Moves Point.Still ctx ctx') :
    ctx.Settles ctx' := by
  refine ⟨h.scope, fun id => ?_⟩
  have hid := h.points id
  revert hid
  generalize ctx.points[id]? = o, ctx'.points[id]? = o'
  intro hid
  cases hid with
  | some hstill => exact .of_still hstill
  | none => rfl

theorem settles_of_annotated {ctx ctx' : Context} (h : Moves Annotated ctx ctx') :
    ctx.Settles ctx' := (h.mono fun _ _ => Annotated.still).settles

theorem settles_of_tagged {ctx ctx' : Context} (h : Moves Tagged ctx ctx') : ctx.Settles ctx' :=
  settles_of_annotated (h.mono fun _ _ => Tagged.annotated)

theorem settles_of_noted {ctx ctx' : Context} {a : Action} (h : Moves (Noted ctx a) ctx ctx') :
    ctx.Settles ctx' := settles_of_tagged (h.mono fun _ _ => Noted.tagged)

/-- A request that leaves the slices of every point alone. -/
abbrev Silent {α : Type} (m : Update Context α) : Prop := Keeps Settles m

theorem silent_bind {α β : Type} {m : Update Context α} {f : α → Update Context β}
    (hm : Silent m) (hf : ∀ a, Silent (f a)) : Silent (m >>= f) :=
  keeps_bind settles_trans hm hf

theorem silent_lift {α : Type} (e : Except Error α) : Silent (liftM e : Update Context α) :=
  keeps_lift settles_refl e

theorem silent_pure {α : Type} (a : α) : Silent (pure a : Update Context α) :=
  keeps_pure settles_refl a

theorem silent_addPoint {p : Point} (hfresh : p.IsFresh) : Silent (addPoint p) := by
  intro ctx
  simp only [addPoint, exec_bind, exec_get]
  split
  · exact settles_refl ctx
  · refine ⟨rfl, fun id => ?_⟩
    simp only [exec_bind, exec_pure, exec_set]
    -- only the number that comes next gets a point
    rcases Nat.lt_trichotomy id ctx.points.length with hlt | rfl | hgt
    · rw [List.getElem?_append_left hlt]
      exact Point.lives_refl _
    · rw [List.getElem?_eq_none (Nat.le_refl _), List.getElem?_concat_length]
      exact ⟨p, hfresh, .start⟩
    · rw [List.getElem?_eq_none (Nat.le_of_lt hgt), List.getElem?_eq_none (by
        rw [List.length_append, List.length_singleton]
        omega)]
      rfl

theorem silent_addChild (id : Nat) (s : Splitter) (polarity : Bool) :
    Silent (addChild id s polarity) := by
  refine silent_bind settles_refl fun ctx => silent_bind (silent_lift _) fun p => ?_
  refine silent_bind (silent_addPoint (Point.isFresh_child p id s polarity)) fun child => ?_
  refine silent_bind (fun ctx => Moves.settles ?_) fun _ => silent_pure _
  refine moves_atPoint Point.Still.refl fun q _ => ?_
  exact ⟨rfl, rfl, rfl, rfl, rfl, Nat.le_refl _, fun _ => rfl⟩

theorem silent_split (id : Nat) (splitters : List Splitter) : Silent (split id splitters) :=
  keeps_split settles_refl settles_trans (silent_addChild id) splitters

theorem silent_markImplied (id : Nat) (included : Finding → Bool) :
    Silent (markImplied id included) := by
  intro ctx
  cases hp : ctx.points[id]? with
  | none =>
    rw [exec_markImplied_none hp]
    exact settles_refl ctx
  | some p =>
    rw [exec_markImplied_some hp]
    have hmoves := moves_set tagged_refl hp (tagged_mark p (ctx.redundancyPass id p included).2.1)
    exact ⟨rfl, (settles_of_tagged hmoves).lives⟩

end Silent

/-! ## Growth -/

section Growth

/-- The variables of a point can be given to points that have not opened their slices. -/
theorem settles_handDown {ctx : Context} {ids : List Nat} (h : ctx.MayFollow ids) (p : Point) :
    ctx.Settles (ctx.handDown p ids) := by
  refine (moves_handDown Point.Still.refl fun i hi q hq => ?_).settles
  obtain ⟨q', hq', hfollows⟩ := h i hi
  rw [hq] at hq'
  cases hq'
  exact ⟨rfl, rfl, rfl, rfl, rfl, Nat.le_refl _, by simp [(Point.checkFollows_ok hfollows).1]⟩

theorem GrowsAt.settles {ctx ctx' : Context} {id : Nat} {α : Type} {r : Except Error α}
    (h : ctx.GrowsAt id (r, ctx')) : ctx.Settles ctx' := by
  cases h with
  | failed e => exact settles_refl ctx
  | still a hp hgrown hsteady => exact (moves_set Point.Still.refl hp hgrown.still).settles
  | shared a hp hgrown hfollow =>
    have hset := (moves_set Point.Still.refl hp hgrown.still).settles
    have hmay := hfollow.set hp hgrown.onlyGrows.checkFollows
    exact settles_trans _ _ _ hset (settles_handDown hmay _)

end Growth

end Context

/-! ## Samples that are offered -/

namespace Journal

/-- A relation between journals that holds if nothing happens, that can be followed from journal to
journal, and that holds when a point takes a sample. -/
structure IsKeptByTaking (R : Journal → Journal → Prop) : Prop where
  refl : ∀ j, R j j
  trans : ∀ j j' j'', R j j' → R j' j'' → R j j''
  take : ∀ {j : Journal} {id : Nat} {p : Point} {s : Sample} (count : Nat),
    j.context.points[id]? = some p → p.selects s → s.size = p.catalog.slotCount →
      R j ((noting id (fun _ => p.intake j.context.scope s count)
        (Context.atPoint id (Point.take j.context.scope s count))).exec j).2

theorem checkArity_ok {p : Point} {s : Sample} {u : Unit} (h : p.checkArity s = .ok u) :
    s.size = p.catalog.slotCount := by
  unfold Point.checkArity at h
  split at h
  · assumption
  · cases h

variable {R : Journal → Journal → Prop}

/-- Whatever points a sample is offered to, all that happens is that some of them take it. -/
theorem IsKeptByTaking.addWithin (h : IsKeptByTaking R) (generations id : Nat) (s : Sample)
    (count : Nat) : Keeps R (addWithin generations id s count) := by
  induction generations generalizing id with
  | zero => exact keeps_pure h.refl _
  | succ generations ih =>
    intro j
    simp only [Journal.addWithin, exec_bind, exec_get, exec_lift]
    cases hpoint : j.context.point id with
    | error e => exact h.refl j
    | ok p =>
      cases harity : p.checkArity s with
      | error e => simpa [harity] using h.refl j
      | ok u =>
        simp only [harity]
        split
        · next hselects =>
          have htake := h.take count (Context.point_ok hpoint) hselects (checkArity_ok harity)
          exact rel_bind h.trans htake fun _ j' _ =>
            keeps_forM h.trans h.refl _ (fun child _ => ih child) j'
        · exact h.refl j

theorem IsKeptByTaking.add (h : IsKeptByTaking R) (id : Nat) (s : Sample) (count : Nat) :
    Keeps R (add id s count) := by
  refine keeps_bind h.trans h.refl fun j => ?_
  refine keeps_bind h.trans (keeps_lift h.refl _) fun _ => ?_
  exact h.addWithin _ id s count

theorem IsKeptByTaking.addAndFlow (h : IsKeptByTaking R) (id : Nat) (s : Sample) (count : Nat) :
    Keeps R (addAndFlow id s count) := by
  refine keeps_bind h.trans (h.add id s count) fun _ => ?_
  refine keeps_bind h.trans h.refl fun j => ?_
  refine keeps_bind h.trans (keeps_lift h.refl _) fun p => ?_
  refine keeps_bind h.trans (keeps_mapM h.trans h.refl _ fun e _ => ?_) fun flows => ?_
  · refine keeps_bind h.trans (keeps_lift h.refl _) fun q => ?_
    exact keeps_pure h.refl _
  · exact keeps_forM h.trans h.refl _ fun x _ => h.add x.1 x.2 count

theorem IsKeptByTaking.observe (h : IsKeptByTaking R) (id : Nat) (raw : Sample) (count : Nat) :
    Keeps R (observe id raw count) := by
  refine keeps_bind h.trans h.refl fun j => ?_
  refine keeps_bind h.trans (keeps_lift h.refl _) fun p => ?_
  refine keeps_bind h.trans (keeps_lift h.refl _) fun s => ?_
  exact h.addAndFlow id s count

end Journal

/-! ## Journals -/

namespace Journal

/-- Every point moves by the steps that the journal gains notes about. -/
def Grows (j j' : Journal) : Prop :=
  ∃ notes, j'.notes = j.notes ++ notes ∧ j.context.Evolves notes j'.context

theorem grows_refl (j : Journal) : Grows j j := ⟨[], by simp, Context.settles_refl _⟩

theorem grows_trans (j j' j'' : Journal) (h : Grows j j') (k : Grows j' j'') : Grows j j'' := by
  obtain ⟨notes, hnotes, hevolves⟩ := h
  obtain ⟨more, hmore, kevolves⟩ := k
  exact ⟨notes ++ more, by rw [hmore, hnotes, List.append_assoc], hevolves.trans kevolves⟩

theorem grows_noting {α : Type} {id : Nat} {what : Context → List Happening}
    {m : Update Context α} {j : Journal}
    (h : j.context.Evolves
      ((if (m.exec j.context).1.isOk then what j.context else []).map (id, ·))
      (m.exec j.context).2) :
    Grows j ((noting id what m).exec j).2 := by
  rcases hm : m.exec j.context with ⟨e | a, ctx⟩ <;> rw [hm] at h
  · exact ⟨[], by simp [noting, exec_bind, hm], by simpa [noting, exec_bind, hm] using h⟩
  · exact ⟨(what j.context).map (id, ·), by simp [noting, exec_bind, hm],
      by simpa [noting, exec_bind, hm] using h⟩

/-- A step of one point that is noted with it. -/
theorem grows_atPoint {α : Type} {id : Nat} {what : Context → List Happening}
    {step : Update Point α} {j : Journal}
    (h : ∀ p, j.context.points[id]? = some p →
      p.Steps (if (step.exec p).1.isOk then what j.context else []) (step.exec p).2) :
    Grows j ((noting id what (Context.atPoint id step)).exec j).2 := by
  refine grows_noting ?_
  cases hp : j.context.points[id]? with
  | none =>
    rw [Context.exec_atPoint_none hp]
    exact Context.settles_refl _
  | some p =>
    rw [Context.exec_atPoint_some hp]
    exact Context.evolves_set hp (h p hp)

theorem grows_silent {α : Type} {m : Update Context α} (h : Context.Silent m) (j : Journal) :
    Grows j ((noting 0 (fun _ => []) m).exec j).2 :=
  grows_noting (by simpa [Context.Settles] using h j.context)

theorem grows_take {j : Journal} {id : Nat} {p : Point} {s : Sample} (count : Nat)
    (hp : j.context.points[id]? = some p) (hselects : p.selects s)
    (hsize : s.size = p.catalog.slotCount) :
    Grows j ((noting id (fun _ => p.intake j.context.scope s count)
      (Context.atPoint id (Point.take j.context.scope s count))).exec j).2 := by
  refine grows_atPoint fun q hq => ?_
  obtain rfl : p = q := by simpa [hp] using hq
  exact Point.steps_take _ s count hselects hsize

theorem grows_isKeptByTaking : IsKeptByTaking Grows where
  refl := grows_refl
  trans := grows_trans
  take := grows_take

theorem keeps_atPoint (id : Nat) (action : PointAction) : Keeps Grows (atPoint id action) := by
  intro j
  refine grows_atPoint fun p hp => ?_
  rw [hp]
  exact Point.steps_perform action p

theorem keeps_openViews (id min limit : Nat) :
    Keeps Grows (perform (.openViews id min limit)) := by
  intro j
  refine grows_noting ?_
  rw [Context.exec_perform_openViews]
  cases hp : j.context.points[id]? with
  | none =>
    rw [Context.exec_atPoint_none hp]
    exact Context.settles_refl _
  | some p =>
    rw [Context.exec_atPoint_some hp]
    exact Context.evolves_set hp (Point.steps_perform (.openViews j.context.scope min limit) p)

/-- Every request moves every point by the steps that are noted about it. -/
theorem keeps_perform (a : Action) : Keeps Grows (perform a) := by
  cases a with
  | addPoint name vars =>
    dsimp only [perform]
    refine grows_silent (Context.silent_bind (Context.silent_addPoint ?_) fun _ => ?_)
    · exact Point.isFresh_ofVariables name vars
    · exact Context.silent_pure _
  | addVariables id vars =>
    dsimp only [perform]
    refine grows_silent (Context.silent_bind (fun ctx => ?_) fun _ => Context.silent_pure _)
    exact (Context.growsAt_addVariables id vars ctx).settles
  | createDerived id =>
    dsimp only [perform]
    refine grows_silent (Context.silent_bind (fun ctx => ?_) fun _ => Context.silent_pure _)
    exact (Context.growsAt_createDerived id ctx).settles
  | openViews id min limit => exact keeps_openViews id min limit
  | split id splitters =>
    dsimp only [perform]
    exact grows_silent <|
      Context.silent_bind (Context.silent_split id splitters) fun _ => Context.silent_pure _
  | addDataflow source target transform =>
    dsimp only [perform]
    exact grows_silent fun ctx =>
      Context.settles_of_noted (Context.notes_addDataflow source target transform ctx)
  | addInvflow source target transform =>
    dsimp only [perform]
    exact grows_silent fun ctx =>
      Context.settles_of_noted (Context.notes_addInvflow source target transform ctx)
  | addController controlled controller =>
    dsimp only [perform]
    exact grows_silent fun ctx =>
      Context.settles_of_noted (Context.notes_addController controlled controller ctx)
  | add id s count => exact grows_isKeptByTaking.add id s count
  | addAndFlow id s count => exact grows_isKeptByTaking.addAndFlow id s count
  | observe id raw count => exact grows_isKeptByTaking.observe id raw count
  | addImplications id =>
    dsimp only [perform]
    refine grows_silent (Context.silent_bind (fun ctx => ?_) fun _ => Context.silent_pure _)
    exact Context.settles_of_annotated (Context.annotates_addImplications id ctx)
  | markImplied id included =>
    dsimp only [perform]
    exact grows_silent <|
      Context.silent_bind (Context.silent_markImplied id included) fun _ => Context.silent_pure _
  | setObject id isObject =>
    dsimp only [perform]
    exact grows_silent fun ctx =>
      Context.settles_of_noted (Context.notes_setObject id isObject ctx)
  | atPoint id action => exact keeps_atPoint id action

end Journal

namespace Context

theorem grows_journal (ctx : Context) (acts : List Action) :
    Journal.Grows { context := ctx } (ctx.journal acts) := by
  unfold journal
  generalize ({ context := ctx } : Journal) = j
  induction acts generalizing j with
  | nil => exact Journal.grows_refl j
  | cons a acts ih => exact Journal.grows_trans _ _ _ (Journal.keeps_perform a j) (ih _)

/-- A session moves every point by the steps that are noted about it. -/
theorem evolves_after (ctx : Context) (acts : List Action) :
    ctx.Evolves (ctx.journal acts).notes (ctx.after acts) := by
  obtain ⟨notes, hnotes, hevolves⟩ := ctx.grows_journal acts
  rw [ctx.journal_context acts] at hevolves
  rw [hnotes, List.nil_append]
  exact hevolves

/-- A session does not change what slices are opened with. -/
theorem scope_after (ctx : Context) (acts : List Action) : (ctx.after acts).scope = ctx.scope :=
  (ctx.evolves_after acts).scope

theorem lives_after (ctx : Context) (acts : List Action) (id : Nat) :
    Point.Lives ctx.points[id]? (ctx.happenings acts id) (ctx.after acts).points[id]? :=
  (ctx.evolves_after acts).lives id

/-- After a session on a context without points, every point has come from a fresh one by the
steps that were noted about it. -/
theorem steps_after {ctx : Context} (hempty : ctx.points = []) (acts : List Action) {id : Nat}
    {q : Point} (hq : (ctx.after acts).points[id]? = some q) :
    ∃ p : Point, p.IsFresh ∧ p.Steps (ctx.happenings acts id) q := by
  have hlives := ctx.lives_after acts id
  rw [hq, hempty] at hlives
  exact hlives

/-- A point that exists goes on by the steps that are noted about it. -/
theorem steps_of_point {ctx : Context} {id : Nat} {p : Point} (hp : ctx.points[id]? = some p)
    (acts : List Action) :
    ∃ q, (ctx.after acts).points[id]? = some q ∧ p.Steps (ctx.happenings acts id) q := by
  have hlives := ctx.lives_after acts id
  rw [hp] at hlives
  cases hq : (ctx.after acts).points[id]? with
  | none =>
    rw [hq] at hlives
    exact hlives.elim
  | some q =>
    rw [hq] at hlives
    exact ⟨q, rfl, hlives⟩

end Context

end LikelyInvariants
