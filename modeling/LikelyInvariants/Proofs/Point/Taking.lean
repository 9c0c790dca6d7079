import LikelyInvariants.Proofs.Invariant.Feeding
import LikelyInvariants.Proofs.Point.Steps

/-!
# Points that take samples

The first sample that a point takes opens its slices. That fails if one of them is open already, and
then the point stays as it is (`Point.exec_take`); a point that nobody has interfered with takes
every sample that fits its variables (`Point.IsReady.admits`). What becomes of the point depends on
its variables and on what it makes of samples, and neither on its name nor on its relatives. So two
points with the same variables take the same samples alike (`Point.Agrees.takingAll`).
-/

namespace LikelyInvariants.Point

open Update

/-! ## Taking a sample -/

section Taking

/-- A point to whose slices nothing has happened and that gave out no numbers. -/
structure IsUntouched (p : Point) : Prop extends p.IsFresh where
  nextId : p.nextId = 0

/-- The slices of the point are open, or they are opened by the next sample. -/
def IsReady (p : Point) : Prop := p.viewsOpen ∨ p.IsFresh

/-- No sample was taken before the slices were open. -/
def OpensFirst (p : Point) : Prop := p.viewsOpen = false → p.samples = 0

theorem IsReady.opensFirst {p : Point} (h : p.IsReady) : p.OpensFirst := by
  intro hclosed
  rcases h with hopen | hfresh
  · rw [hopen] at hclosed
    cases hclosed
  · exact hfresh.samples

/-- Samples are taken after the slices were opened, and these stay open. -/
theorem Steps.opensFirst {p q : Point} {hs : List Happening} (h : p.Steps hs q)
    (hfresh : p.IsFresh) : q.OpensFirst := by
  induction h with
  | start => exact fun _ => hfresh.samples
  | still _ k ih => exact fun hclosed => k.samples.trans (ih (k.viewsOpen.symm.trans hclosed))
  | step _ k ih =>
    intro hclosed
    cases k with
    | opened h =>
      obtain ⟨-, -, pending, -, rfl⟩ := openViews_ok h
      cases hclosed
    | took hopen =>
      exact absurd (hopen (ih hclosed)) (ne_true_of_eq_false hclosed)
    | filled h =>
      obtain ⟨_, -, rfl⟩ := addInvariant_ok h
      exact ih hclosed
    | sliceOpened h =>
      obtain rfl | ⟨key, rfl⟩ := openSlice_ok h
      · exact ih hclosed
      · exact ih hclosed
    | sliceRemoved h =>
      obtain ⟨key, rfl⟩ := removeSlice_ok h
      exact ih hclosed

/-- The candidates with which a scope opens the slices of a point. -/
def views (scope : Scope) (p : Point) : List (List Nat × List Invariant) :=
  (p.catalog.viewKeys 0 p.catalog.size scope.ternary).filterMap fun key =>
    let candidates := scope.factories.candidates (p.catalog.vars? key)
    if scope.controlled p key || candidates.isEmpty then none else some (key, candidates)

/-- The point with its slices open. -/
def opened (scope : Scope) (p : Point) : Point :=
  { p.openAll (p.views scope) with viewsOpen := true }

/-- The point after it took a sample. -/
def taking (scope : Scope) (s : Sample) (count : Nat) (p : Point) : Point :=
  (if p.viewsOpen then p else p.opened scope).feed s count

/-- The point after it took some samples. -/
def takingAll (scope : Scope) (log : List (Sample × Nat)) (p : Point) : Point :=
  log.foldl (fun p x => p.taking scope x.1 x.2) p

/-- The slices to open over all variables, if none of them is open. -/
def pendingAll (scope : Scope) (p : Point) : Except Error (List (List Nat × List Invariant)) :=
  p.pendingViews scope.factories scope.controlled
    (p.catalog.viewKeys 0 p.catalog.size scope.ternary)

/-- Whether a sample can be offered to the point: it has a slot for each variable, and if the slices
have to be opened for it, none of them is open. -/
def admits (scope : Scope) (s : Sample) (p : Point) : Except Error Unit :=
  match p.checkArity s with
  | .error e => .error e
  | .ok _ => if p.selects s && !p.viewsOpen then (p.pendingAll scope).map fun _ => () else .ok ()

variable {scope : Scope} {s : Sample} {count : Nat} {p q : Point}

theorem pendingAll_eq (scope : Scope) (p : Point) : p.pendingAll scope =
    match (p.views scope).find? fun x => (p.slice? x.1).isSome with
    | some (key, _) => .error (.duplicateSlice p.name key)
    | none => .ok (p.views scope) := rfl

/-- The slices of all views open, unless one of them is open. -/
theorem exec_openViews (scope : Scope) (p : Point) :
    (∃ n, p.pendingAll scope = .ok (p.views scope) ∧
      (scope.openViews 0 p.catalog.size).exec p = (.ok n, p.opened scope)) ∨
    ∃ e, p.pendingAll scope = .error e ∧
      (scope.openViews 0 p.catalog.size).exec p = (.error e, p) := by
  rcases hexec : (scope.openViews 0 p.catalog.size).exec p with ⟨e | n, q⟩
  · obtain rfl := openViews_error hexec
    refine .inr ⟨e, ?_, rfl⟩
    rw [Scope.openViews, openViews] at hexec
    simp only [exec_bind, exec_get] at hexec
    rw [if_neg (by omega)] at hexec
    split at hexec
    · simp at hexec
    · simp only [exec_bind, exec_lift] at hexec
      split at hexec
      · simp at hexec
      · next hpending => simp_all [pendingAll]
  · obtain ⟨-, -, pending, hpending, rfl⟩ := openViews_ok hexec
    have hall : p.pendingAll scope = .ok pending := hpending
    obtain rfl : pending = p.views scope := by
      rw [pendingAll_eq] at hall
      split at hall <;> cases hall
      rfl
    exact .inl ⟨n, hall, rfl⟩

/-- A sample that the point selects is taken, or it is not admitted and nothing changes. -/
theorem exec_take (hopens : p.OpensFirst) (hselects : p.selects s)
    (harity : p.checkArity s = .ok ()) (scope : Scope) (count : Nat) :
    (take scope s count).exec p = (p.admits scope s,
      if (p.admits scope s).isOk then p.taking scope s count else p) := by
  unfold take openForFirst taking admits
  rw [harity, hselects]
  by_cases hopen : p.viewsOpen
  · simp [exec_bind, hopen]
  · have hclosed : p.viewsOpen = false := by simpa using hopen
    rcases exec_openViews scope p with ⟨n, hpending, hexec⟩ | ⟨e, hpending, hexec⟩ <;>
      rw [Scope.openViews] at hexec <;>
      simp [exec_bind, hclosed, hopens hclosed, hpending, hexec]

/-- A point that is ready admits every sample that fits its variables. -/
theorem IsReady.admits (h : p.IsReady) (harity : p.checkArity s = .ok ()) :
    p.admits scope s = .ok () := by
  unfold Point.admits
  rcases h with hopen | hfresh
  · simp [harity, hopen]
  · have hnone : (p.views scope).find? (fun x => (p.slice? x.1).isSome) = none :=
      List.find?_eq_none.mpr fun x _ => by simp [slice?, hfresh.slices]
    simp [harity, pendingAll_eq, hnone]

@[simp] theorem viewsOpen_taking : (p.taking scope s count).viewsOpen = true := by
  unfold taking
  split
  · next hopen => exact hopen
  · rfl

theorem samples_taking : (p.taking scope s count).samples = p.samples + count := by
  unfold taking opened
  split
  · rfl
  · show (p.openAll _).samples + count = _
    rw [openAll_samples]

theorem sliced_opened (scope : Scope) (p : Point) : Sliced p (p.opened scope) :=
  sliced_trans _ _ _ (sliced_openAll p (p.views scope)) ⟨_, _, true, _, rfl⟩

theorem sliced_taking (scope : Scope) (s : Sample) (count : Nat) (p : Point) :
    Sliced p (p.taking scope s count) := by
  have hfeed (q : Point) : Sliced q (q.feed s count) := ⟨_, _, q.viewsOpen, q.nextId, rfl⟩
  unfold taking
  split
  · exact hfeed p
  · exact sliced_trans _ _ _ (sliced_opened scope p) (hfeed _)

theorem sliced_takingAll (scope : Scope) (log : List (Sample × Nat)) (p : Point) :
    Sliced p (p.takingAll scope log) := by
  induction log generalizing p with
  | nil => exact sliced_refl p
  | cons x log ih => exact sliced_trans _ _ _ (sliced_taking scope x.1 x.2 p) (ih _)

/-- Once the slices are open, only the number of slots matters. -/
theorem admits_of_viewsOpen (hopen : p.viewsOpen) (s : Sample) :
    p.admits scope s = p.checkArity s := by
  unfold admits
  cases harity : p.checkArity s <;> simp [hopen]

/-- A point that takes a sample admits the same samples as before. -/
theorem admits_taking (hselects : p.selects s) (h : (p.admits scope s).isOk) (t : Sample) :
    (p.taking scope s count).admits scope t = p.admits scope t := by
  have harity : (p.taking scope s count).checkArity t = p.checkArity t := by
    obtain ⟨_, _, _, _, hsliced⟩ := sliced_taking scope s count p
    rw [hsliced]
    rfl
  rw [admits_of_viewsOpen viewsOpen_taking, harity]
  by_cases hopen : p.viewsOpen
  · rw [admits_of_viewsOpen hopen]
  · have hpending : ∃ pending, p.pendingAll scope = .ok pending := by
      unfold admits at h
      cases hs : p.checkArity s <;> simp [hs, hselects, hopen] at h
      cases hall : p.pendingAll scope with
      | error e => simp [hall] at h
      | ok pending => exact ⟨pending, rfl⟩
    obtain ⟨pending, hall⟩ := hpending
    unfold admits
    cases p.checkArity t <;> simp [hall]

theorem OpensFirst.takingAll (h : p.OpensFirst) (log : List (Sample × Nat)) :
    (p.takingAll scope log).OpensFirst := by
  induction log generalizing p with
  | nil => exact h
  | cons x log ih => exact ih fun hclosed => by simp at hclosed

theorem takingAll_append (log more : List (Sample × Nat)) :
    p.takingAll scope (log ++ more) = (p.takingAll scope log).takingAll scope more :=
  List.foldl_append

theorem samples_takingAll (log : List (Sample × Nat)) :
    (p.takingAll scope log).samples = p.samples + total log := by
  induction log generalizing p with
  | nil => rfl
  | cons x log ih =>
    have hrest : (p.takingAll scope (x :: log)).samples = _ := ih
    rw [hrest, samples_taking, total_cons, Nat.add_assoc]

end Taking

/-! ## Agreement -/

section Agreement

/-- Two points have the same variables and have made the same of samples. -/
structure Agrees (p q : Point) : Prop where
  catalog : q.catalog = p.catalog
  slices : q.slices = p.slices
  samples : q.samples = p.samples
  viewsOpen : q.viewsOpen = p.viewsOpen
  nextId : q.nextId = p.nextId

variable {scope : Scope} {p q : Point}

theorem IsUntouched.agrees (hp : p.IsUntouched) (hq : q.IsUntouched)
    (hcatalog : q.catalog = p.catalog) : Agrees p q where
  catalog := hcatalog
  slices := hq.slices.trans hp.slices.symm
  samples := hq.samples.trans hp.samples.symm
  viewsOpen := hq.viewsOpen.trans hp.viewsOpen.symm
  nextId := hq.nextId.trans hp.nextId.symm

namespace Agrees

theorem feed (h : Agrees p q) (s : Sample) (count : Nat) :
    Agrees (p.feed s count) (q.feed s count) := by
  refine ⟨h.catalog, ?_, ?_, h.viewsOpen, h.nextId⟩
  · unfold Point.feed
    rw [h.catalog, h.slices]
  · unfold Point.feed
    rw [h.samples]

theorem openView (h : Agrees p q) (key : List Nat) (invs : List Invariant) :
    Agrees (p.openView key invs) (q.openView key invs) := by
  refine ⟨h.catalog, ?_, h.samples, h.viewsOpen, ?_⟩
  · unfold Point.openView
    rw [h.slices, h.nextId]
  · unfold Point.openView
    rw [h.nextId]

theorem openAll (h : Agrees p q) (pending : List (List Nat × List Invariant)) :
    Agrees (p.openAll pending) (q.openAll pending) := by
  induction pending generalizing p q with
  | nil => exact h
  | cons x pending ih => exact ih (h.openView x.1 x.2)

theorem opened (h : Agrees p q) (hcontrolled : scope.controlled q = scope.controlled p) :
    Agrees (p.opened scope) (q.opened scope) := by
  have hviews : q.views scope = p.views scope := by
    unfold views
    rw [h.catalog, hcontrolled]
  have hopened := h.openAll (p.views scope)
  unfold Point.opened
  rw [hviews]
  exact ⟨hopened.catalog, hopened.slices, hopened.samples, rfl, hopened.nextId⟩

/-- Points that agree take a sample alike. Who controls them matters only before their slices are
open. -/
theorem taking (h : Agrees p q)
    (hcontrolled : p.viewsOpen = false → scope.controlled q = scope.controlled p) (s : Sample)
    (count : Nat) : Agrees (p.taking scope s count) (q.taking scope s count) := by
  unfold Point.taking
  rw [h.viewsOpen]
  by_cases hopen : p.viewsOpen
  · rw [if_pos hopen, if_pos hopen]
    exact h.feed s count
  · rw [if_neg hopen, if_neg hopen]
    exact (h.opened (hcontrolled (by simpa using hopen))).feed s count

theorem takingAll (h : Agrees p q)
    (hcontrolled : p.viewsOpen = false → scope.controlled q = scope.controlled p)
    (log : List (Sample × Nat)) : Agrees (p.takingAll scope log) (q.takingAll scope log) := by
  induction log generalizing p q with
  | nil => exact h
  | cons x log ih => exact ih (h.taking hcontrolled x.1 x.2) fun hclosed => by simp at hclosed

end Agrees

end Agreement

end LikelyInvariants.Point
