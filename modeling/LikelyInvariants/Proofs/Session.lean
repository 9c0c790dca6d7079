import LikelyInvariants.Context.Intake
import LikelyInvariants.Context.Split
import LikelyInvariants.Proofs.Update
import LikelyInvariants.Redundancy

/-!
# Sessions

A session is a sequence of requests to a context. A request that fails does not end the session:
what it did before it failed stays, and the session goes on from there. What holds after every
session holds in every reachable state.

What a point makes of a session depends on the samples it took and on when its slices were opened
and by whom. The journal of a session is kept for that: beside the context it collects what
happened at the points, in order. Journal and session make the same steps
(`Context.journal_context`), so the notes are about the session itself.
-/

namespace LikelyInvariants

/-! ## Requests -/

/-- What the opening of slices depends on besides the point. -/
structure Scope where
  factories : Factories
  controlled : Controlled
  ternary : Bool

/-- What a context opens slices with. -/
def Context.scope (ctx : Context) : Scope where
  factories := ctx.factories
  controlled := ctx.controlled
  ternary := !ctx.config.disableTernaryInvariants

/-- A context without points and without a prover, in which nothing is disabled. -/
def Context.standard : Context where
  config := {}
  factories := .standard
  rules := .standard

/-- A request to one point, past the context that holds it. -/
inductive PointAction where
  | addVariables (vars : List Declaration)
  | createDerived (rules : Rules) (settings : DeriveSettings)
  | openViews (scope : Scope) (min limit : Nat)
  | openSlice (vars : List Nat)
  | addInvariant (vars : List Nat) (inv : Invariant)
  | removeSlice (vars : List Nat)

/-- Whether a request gives the point variables. -/
def PointAction.grows : PointAction → Bool
  | addVariables _ | createDerived _ _ => true
  | _ => false

/-- A request to a context. -/
inductive Action where
  | addPoint (name : String) (vars : List Declaration)
  | addVariables (id : Nat) (vars : List Declaration)
  | createDerived (id : Nat)
  | openViews (id min limit : Nat)
  | split (id : Nat) (splitters : List Splitter)
  | addDataflow (source target : Nat) (transform : List (Option Nat))
  | addInvflow (source target : Nat) (transform : List (Option Nat))
  | addController (controlled controller : Nat)
  | add (id : Nat) (s : Sample) (count : Nat)
  | addAndFlow (id : Nat) (s : Sample) (count : Nat)
  | observe (id : Nat) (raw : Sample) (count : Nat)
  | addImplications (id : Nat)
  | markImplied (id : Nat) (included : Finding → Bool)
  | setObject (id : Nat) (isObject : Bool)
  | atPoint (id : Nat) (action : PointAction)

/-- Opens the slices of a point over a range. -/
def Scope.openViews (scope : Scope) (min limit : Nat) : Update Point Nat :=
  Point.openViews min limit scope.factories scope.controlled scope.ternary

def Point.perform : PointAction → Update Point Unit
  | .addVariables vars => do let _ ← Point.addVariables vars
  | .createDerived rules settings => do let _ ← Point.createDerived rules settings
  | .openViews scope min limit => do let _ ← scope.openViews min limit
  | .openSlice vars => do let _ ← Point.openSlice vars
  | .addInvariant vars inv => do let _ ← Point.addInvariant vars inv
  | .removeSlice vars => do let _ ← Point.removeSlice vars

/-- The point after some requests to it. -/
def Point.after (p : Point) (acts : List PointAction) : Point :=
  acts.foldl (fun p a => ((perform a).exec p).2) p

namespace Context

def perform : Action → Update Context Unit
  | .addPoint name vars => do let _ ← addPoint (.ofVariables name vars)
  | .addVariables id vars => do let _ ← addVariables id vars
  | .createDerived id => do let _ ← createDerived id
  | .openViews id min limit => do let _ ← openViews id min limit
  | .split id splitters => do let _ ← split id splitters
  | .addDataflow source target transform => addDataflow source target transform
  | .addInvflow source target transform => addInvflow source target transform
  | .addController controlled controller => addController controlled controller
  | .add id s count => add id s count
  | .addAndFlow id s count => addAndFlow id s count
  | .observe id raw count => observe id raw count
  | .addImplications id => do let _ ← addImplications id
  | .markImplied id included => do let _ ← markImplied id included
  | .setObject id isObject => setObject id isObject
  | .atPoint id action => atPoint id (Point.perform action)

/-- The context after a session. -/
def after (ctx : Context) (acts : List Action) : Context :=
  acts.foldl (fun ctx a => ((perform a).exec ctx).2) ctx

@[simp] theorem after_nil (ctx : Context) : ctx.after [] = ctx := rfl

theorem after_concat (ctx : Context) (acts : List Action) (a : Action) :
    ctx.after (acts ++ [a]) = ((perform a).exec (ctx.after acts)).2 := by
  unfold after
  rw [List.foldl_append, List.foldl_cons, List.foldl_nil]

/-- What every request keeps, every session keeps. -/
theorem after_induction {P : Context → Prop} (hstep : ∀ ctx a, P ctx → P ((perform a).exec ctx).2)
    {ctx : Context} (h : P ctx) (acts : List Action) : P (ctx.after acts) := by
  induction acts generalizing ctx with
  | nil => exact h
  | cons a acts ih => exact ih (hstep ctx a h)

/-- What a session on a context without points has led to. -/
def Attained (ctx : Context) : Prop :=
  ∃ (start : Context) (acts : List Action), start.points = [] ∧ start.after acts = ctx

end Context

/-! ## What happens at the points -/

/-- What happened at a point. -/
inductive Happening where
  /-- Its slices were opened over a range that begins at `min`; the point was `before` then. -/
  | opened (before : Point) (scope : Scope) (min : Nat)
  /-- It took a sample. -/
  | took (s : Sample) (count : Nat)
  /-- An invariant was put into a slice by hand. -/
  | filled (vars : List Nat) (inv : Invariant)
  /-- A slice was opened by hand. -/
  | sliceOpened (vars : List Nat)
  /-- A slice was closed by hand. -/
  | sliceRemoved (vars : List Nat)

/-- Whether it brings invariants into slices or feeds them. -/
def Happening.fills : Happening → Bool
  | opened _ _ _ | took _ _ | filled _ _ => true
  | sliceOpened _ | sliceRemoved _ => false

/-- The samples that were taken, with their counts. -/
def taken (hs : List Happening) : List (Sample × Nat) :=
  hs.filterMap fun
    | .took s count => some (s, count)
    | _ => none

/-- The happening of a sample with its count. -/
def Happening.ofSample (x : Sample × Nat) : Happening := .took x.1 x.2

/-- What a successful request does to the slices of a point. -/
def PointAction.happenings (p : Point) : PointAction → List Happening
  | .openViews scope min _ => [.opened p scope min]
  | .openSlice vars => [.sliceOpened vars]
  | .addInvariant vars inv => [.filled vars inv]
  | .removeSlice vars => [.sliceRemoved vars]
  | .addVariables _ | .createDerived _ _ => []

/-- What happens at a point that takes a sample: its slices are opened before the first one. -/
def Point.intake (p : Point) (scope : Scope) (s : Sample) (count : Nat) : List Happening :=
  if p.samples = 0 && !p.viewsOpen then [.opened p scope 0, .took s count] else [.took s count]

/-! ## Journals -/

/-- A context with what has happened at its points. -/
structure Journal where
  context : Context
  notes : List (Nat × Happening) := []

namespace Journal

/-- What has happened at a point. -/
def about (notes : List (Nat × Happening)) (id : Nat) : List Happening :=
  notes.filterMap fun (i, h) => if i = id then some h else none

@[simp] theorem about_nil (id : Nat) : about [] id = [] := rfl

@[simp] theorem about_append (notes more : List (Nat × Happening)) (id : Nat) :
    about (notes ++ more) id = about notes id ++ about more id := List.filterMap_append

@[simp] theorem about_map_self (id : Nat) (hs : List Happening) :
    about (hs.map (id, ·)) id = hs := by
  induction hs with
  | nil => rfl
  | cons h hs ih =>
    have hcons (notes : List (Nat × Happening)) :
        about ((id, h) :: notes) id = h :: about notes id := by
      simp [about]
    rw [List.map_cons, hcons, ih]

theorem about_map_of_ne {id other : Nat} (h : id ≠ other) (hs : List Happening) :
    about (hs.map (id, ·)) other = [] := by
  simp [about, h]

variable {α β : Type}

/-- Carries out a step and notes at a point what happens if it succeeds. -/
def noting (id : Nat) (what : Context → List Happening) (m : Update Context α) :
    Update Journal α := do
  let j ← get
  let (result, context) := m.exec j.context
  match result with
  | .ok a =>
    set { context, notes := j.notes ++ (what j.context).map (id, ·) : Journal }
    return a
  | .error e =>
    set { j with context }
    throw e

/-- A request to one point, with what happens there. -/
def atPoint (id : Nat) (action : PointAction) : Update Journal Unit :=
  noting id (fun ctx => ctx.points[id]?.elim [] action.happenings)
    (Context.atPoint id (Point.perform action))

def addWithin : Nat → Nat → Sample → Nat → Update Journal Unit
  | 0, _, _, _ => return
  | generations + 1, id, s, count => do
    let ctx := (← get).context
    let p ← ctx.point id
    p.checkArity s
    if p.selects s then
      noting id (fun _ => p.intake ctx.scope s count) <| Context.atPoint id do
        Point.openForFirst ctx.factories ctx.controlled !ctx.config.disableTernaryInvariants
        modify fun p => p.feed s count
      p.children.forM fun child => addWithin generations child s count

def add (id : Nat) (s : Sample) (count : Nat) : Update Journal Unit := do
  let ctx := (← get).context
  let _ ← ctx.point id
  addWithin ctx.points.length id s count

def addAndFlow (id : Nat) (s : Sample) (count : Nat) : Update Journal Unit := do
  add id s count
  let ctx := (← get).context
  let p ← ctx.point id
  let flows ← p.dataflow.mapM fun e => do
    let q ← ctx.point e.target
    return (e.target, e.carry p.catalog q.catalog s)
  flows.forM fun (target, carried) => add target carried count

def observe (id : Nat) (raw : Sample) (count : Nat) : Update Journal Unit := do
  let p ← (← get).context.point id
  addAndFlow id (← p.extend raw) count

/-- A request, with what happens at the points. -/
def perform : Action → Update Journal Unit
  | .openViews id min limit =>
    noting id (fun ctx => ctx.points[id]?.elim [] fun p => [.opened p ctx.scope min])
      (Context.perform (.openViews id min limit))
  | .add id s count => add id s count
  | .addAndFlow id s count => addAndFlow id s count
  | .observe id raw count => observe id raw count
  | .atPoint id action => atPoint id action
  | a => noting 0 (fun _ => []) (Context.perform a)

end Journal

namespace Context

/-- The journal of a session. -/
def journal (ctx : Context) (acts : List Action) : Journal :=
  acts.foldl (fun j a => ((Journal.perform a).exec j).2) { context := ctx }

/-- What happens at a point in a session. -/
def happenings (ctx : Context) (acts : List Action) (id : Nat) : List Happening :=
  Journal.about (ctx.journal acts).notes id

end Context

/-! ## Journals and sessions agree -/

section Agreement

variable {α β : Type}

/-- The journal's step has the result of the context's step and leaves the same context. -/
def Records (m' : Update Journal α) (m : Update Context α) : Prop :=
  ∀ j, (m'.exec j).1 = (m.exec j.context).1 ∧ (m'.exec j).2.context = (m.exec j.context).2

theorem records_pure (a : α) : Records (pure a) (pure a) := fun _ => ⟨rfl, rfl⟩

theorem records_lift (e : Except Error α) : Records (liftM e) (liftM e) := by
  intro j
  simp

theorem records_noting (id : Nat) (what : Context → List Happening) (m : Update Context α) :
    Records (Journal.noting id what m) m := by
  intro j
  rcases h : m.exec j.context with ⟨e | a, ctx⟩ <;>
    simp [Journal.noting, Update.exec_bind, h]

theorem records_bind {m' : Update Journal α} {m : Update Context α} {f' : α → Update Journal β}
    {f : α → Update Context β} (hm : Records m' m) (hf : ∀ a, Records (f' a) (f a)) :
    Records (m' >>= f') (m >>= f) := by
  intro j
  obtain ⟨hresult, hcontext⟩ := hm j
  rcases h' : m'.exec j with ⟨result, j'⟩
  rcases h : m.exec j.context with ⟨result₀, ctx⟩
  rw [h', h] at hresult hcontext
  subst hresult hcontext
  cases result with
  | error e => simp [Update.exec_bind, h', h]
  | ok a => simpa [Update.exec_bind, h', h] using hf a j'

/-- A step that first looks at the context. -/
theorem records_get {f' : Journal → Update Journal α} {f : Context → Update Context α}
    (h : ∀ j : Journal, Records (f' j) (f j.context)) : Records (get >>= f') (get >>= f) := by
  intro j
  simpa [Update.exec_bind] using h j j

theorem records_forM {f' : α → Update Journal PUnit} {f : α → Update Context PUnit}
    (h : ∀ a, Records (f' a) (f a)) : ∀ l : List α, Records (l.forM f') (l.forM f)
  | [] => records_pure _
  | a :: l => records_bind (h a) fun _ => records_forM h l

theorem records_mapM {f' : α → Update Journal β} {f : α → Update Context β}
    (h : ∀ a, Records (f' a) (f a)) : ∀ l : List α, Records (l.mapM f') (l.mapM f)
  | [] => by
    rw [List.mapM_nil, List.mapM_nil]
    exact records_pure _
  | a :: l => by
    rw [List.mapM_cons, List.mapM_cons]
    exact records_bind (h a) fun _ => records_bind (records_mapM h l) fun _ => records_pure _

theorem records_addWithin (generations id : Nat) (s : Sample) (count : Nat) :
    Records (Journal.addWithin generations id s count)
      (Context.addWithin generations id s count) := by
  induction generations generalizing id with
  | zero => exact records_pure _
  | succ generations ih =>
    rw [Journal.addWithin, Context.addWithin]
    refine records_get fun j => ?_
    refine records_bind (records_lift _) fun p => ?_
    refine records_bind (records_lift _) fun _ => ?_
    split
    · refine records_bind (records_noting _ _ _) fun _ => ?_
      exact records_forM (fun child => ih child) _
    · exact records_pure _

theorem records_add (id : Nat) (s : Sample) (count : Nat) :
    Records (Journal.add id s count) (Context.add id s count) := by
  refine records_get fun j => ?_
  exact records_bind (records_lift _) fun _ => records_addWithin _ _ _ _

theorem records_addAndFlow (id : Nat) (s : Sample) (count : Nat) :
    Records (Journal.addAndFlow id s count) (Context.addAndFlow id s count) := by
  refine records_bind (records_add _ _ _) fun _ => ?_
  refine records_get fun j => ?_
  refine records_bind (records_lift _) fun p => ?_
  refine records_bind (records_mapM (fun e => ?_) _) fun flows => ?_
  · exact records_bind (records_lift _) fun q => records_pure _
  · exact records_forM (fun x => records_add _ _ _) _

theorem records_observe (id : Nat) (raw : Sample) (count : Nat) :
    Records (Journal.observe id raw count) (Context.observe id raw count) := by
  refine records_get fun j => ?_
  refine records_bind (records_lift _) fun p => ?_
  exact records_bind (records_lift _) fun s => records_addAndFlow _ _ _

/-- The journal of a request makes the same step as the request. -/
theorem records_perform (a : Action) : Records (Journal.perform a) (Context.perform a) := by
  cases a with
  | add id s count => exact records_add _ _ _
  | addAndFlow id s count => exact records_addAndFlow _ _ _
  | observe id raw count => exact records_observe _ _ _
  | _ =>
    dsimp only [Journal.perform]
    exact records_noting _ _ _

theorem Journal.context_foldl (acts : List Action) (j : Journal) :
    (acts.foldl (fun j a => ((Journal.perform a).exec j).2) j).context = j.context.after acts := by
  induction acts generalizing j with
  | nil => rfl
  | cons a acts ih =>
    rw [List.foldl_cons, ih, (records_perform a j).2]
    rfl

/-- The journal of a session ends with the context that the session ends with. -/
theorem Context.journal_context (ctx : Context) (acts : List Action) :
    (ctx.journal acts).context = ctx.after acts :=
  Journal.context_foldl acts _

end Agreement

end LikelyInvariants
