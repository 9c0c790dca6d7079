import LikelyInvariants.Proofs.Point.Falsification

/-!
# Falsification

Once a sample has falsified an invariant of a point, only two kinds of requests bring an invariant of
its form back over the same variables: one that puts it there by hand, and one that opens the slices
of the point over a range (`Context.renewed_by_request`). The latter fails while a slice of the range
is open, but it does not know those that were closed because nothing was left of them. So a session
can find out again what it has falsified already (`Context.falsified_again_alive`).

Samples open slices too, but only those of points that have not opened them. The journal tells the
one from the other: what is noted for a request is what it asked for, or it comes from a sample
(`Action.Accounts`).
-/

namespace LikelyInvariants

open Update

/-! ## What is noted for a request -/

/-- What can happen to a point because of a sample. -/
def Happening.IsIntake (scope : Scope) : Happening → Prop
  | took _ _ => True
  | opened before other _ => other = scope ∧ before.viewsOpen = false
  | filled _ _ | sliceOpened _ | sliceRemoved _ => False

/-- What a request can make happen at a point: what it asks for, or what samples do. -/
inductive Action.Accounts (scope : Scope) : Action → Nat → Happening → Prop
  | intake {a : Action} {id : Nat} {h : Happening} (hintake : h.IsIntake scope) :
      Accounts scope a id h
  | openViews {id min limit : Nat} (before : Point) :
      Accounts scope (.openViews id min limit) id (.opened before scope min)
  | atPoint {id : Nat} {action : PointAction} {before : Point} {h : Happening}
      (hmem : h ∈ action.happenings before) : Accounts scope (.atPoint id action) id h

/-- Slices were opened by a request for that, to the context or past it, or by a first sample. -/
theorem Action.Accounts.opened {scope other : Scope} {a : Action} {id min : Nat} {before : Point}
    (h : a.Accounts scope id (.opened before other min)) :
    (∃ limit, a = .atPoint id (.openViews other min limit)) ∨
      other = scope ∧ (before.viewsOpen = false ∨ ∃ limit, a = .openViews id min limit) := by
  cases h with
  | intake hintake => exact .inr ⟨hintake.1, .inl hintake.2⟩
  | openViews => exact .inr ⟨rfl, .inr ⟨_, rfl⟩⟩
  | @atPoint _ action _ _ hnoted =>
    cases action with
    | openViews =>
      obtain ⟨-, rfl, rfl⟩ : _ ∧ _ ∧ _ := by simpa [PointAction.happenings] using hnoted
      exact .inl ⟨_, rfl⟩
    | _ => simp [PointAction.happenings] at hnoted

/-- Nothing but a request for that puts an invariant into a slice by hand. -/
theorem Action.Accounts.filled {scope : Scope} {a : Action} {id : Nat} {vars : List Nat}
    {inv : Invariant} (h : a.Accounts scope id (.filled vars inv)) :
    a = .atPoint id (.addInvariant vars inv) := by
  cases h with
  | intake hintake => exact hintake.elim
  | @atPoint _ action _ _ hnoted =>
    cases action with
    | addInvariant =>
      obtain ⟨rfl, rfl⟩ : _ ∧ _ := by simpa [PointAction.happenings] using hnoted
      rfl
    | _ => simp [PointAction.happenings] at hnoted

theorem Point.isIntake_of_mem_intake {p : Point} {scope : Scope} {s : Sample} {count : Nat}
    {h : Happening} (hmem : h ∈ p.intake scope s count) : h.IsIntake scope := by
  unfold intake at hmem
  split at hmem
  · next hfirst =>
    simp only [Bool.and_eq_true, Bool.not_eq_true'] at hfirst
    rcases List.mem_cons.mp hmem with rfl | hmem
    · exact ⟨rfl, hfirst.2⟩
    · obtain rfl := List.mem_singleton.mp hmem
      trivial
  · obtain rfl := List.mem_singleton.mp hmem
    trivial

namespace Journal

/-- The journal gains notes of a kind. -/
def Gains (P : Nat → Happening → Prop) (j j' : Journal) : Prop :=
  ∃ notes, j'.notes = j.notes ++ notes ∧ ∀ x ∈ notes, P x.1 x.2

variable {P : Nat → Happening → Prop} {α : Type}

theorem gains_refl (j : Journal) : Gains P j j := ⟨[], by simp, by simp⟩

theorem gains_trans (j j' j'' : Journal) (h : Gains P j j') (k : Gains P j' j'') :
    Gains P j j'' := by
  obtain ⟨notes, hnotes, hP⟩ := h
  obtain ⟨more, hmore, hP'⟩ := k
  refine ⟨notes ++ more, by rw [hmore, hnotes, List.append_assoc], fun x hx => ?_⟩
  rcases List.mem_append.mp hx with hx | hx
  · exact hP x hx
  · exact hP' x hx

theorem Gains.mono {Q : Nat → Happening → Prop} {j j' : Journal} (h : Gains P j j')
    (hmono : ∀ id h, P id h → Q id h) : Gains Q j j' := by
  obtain ⟨notes, hnotes, hP⟩ := h
  exact ⟨notes, hnotes, fun x hx => hmono x.1 x.2 (hP x hx)⟩

theorem gains_noting {id : Nat} {what : Context → List Happening} {m : Update Context α}
    {j : Journal} (h : ∀ k ∈ what j.context, P id k) : Gains P j ((noting id what m).exec j).2 := by
  rcases hm : m.exec j.context with ⟨e | a, ctx⟩
  · exact ⟨[], by simp [noting, exec_bind, hm], by simp⟩
  · refine ⟨(what j.context).map (id, ·), by simp [noting, exec_bind, hm], fun x hx => ?_⟩
    obtain ⟨k, hk, rfl⟩ := List.mem_map.mp hx
    exact h k hk

/-- The journal gains notes about samples, and the scope stays as it is. -/
structure Takes (j j' : Journal) : Prop where
  scope : j'.context.scope = j.context.scope
  gains : Gains (fun _ h => h.IsIntake j.context.scope) j j'

theorem takes_isKeptByTaking : IsKeptByTaking Takes where
  refl j := ⟨rfl, gains_refl j⟩
  trans j j' j'' h k := by
    refine ⟨k.scope.trans h.scope, gains_trans j j' j'' h.gains ?_⟩
    rw [← h.scope]
    exact k.gains
  take count hp hselects hsize := by
    obtain ⟨_, -, hevolves⟩ := grows_take count hp hselects hsize
    exact ⟨hevolves.scope, gains_noting fun _ hk => Point.isIntake_of_mem_intake hk⟩

/-- What is noted for a request is accounted for by it. -/
theorem gains_perform (a : Action) (j : Journal) :
    Gains (a.Accounts j.context.scope) j ((perform a).exec j).2 := by
  have htakes {m : Update Journal Unit} (h : Keeps Takes m) :
      Gains (a.Accounts j.context.scope) j (m.exec j).2 :=
    (h j).gains.mono fun _ _ hintake => .intake hintake
  cases a with
  | add id s count => exact htakes (takes_isKeptByTaking.add id s count)
  | addAndFlow id s count => exact htakes (takes_isKeptByTaking.addAndFlow id s count)
  | observe id raw count => exact htakes (takes_isKeptByTaking.observe id raw count)
  | openViews id min limit =>
    dsimp only [perform]
    refine gains_noting fun k hk => ?_
    cases hp : j.context.points[id]? with
    | none => simp [hp] at hk
    | some p =>
      rw [hp] at hk
      obtain rfl := List.mem_singleton.mp hk
      exact .openViews p
  | atPoint id action =>
    dsimp only [perform, atPoint]
    refine gains_noting fun k hk => ?_
    cases hp : j.context.points[id]? with
    | none => simp [hp] at hk
    | some p =>
      rw [hp] at hk
      exact .atPoint hk
  | _ =>
    dsimp only [perform]
    exact gains_noting fun k hk => by cases hk

theorem accounts_foldl (acts : List Action) (j : Journal) {x : Nat × Happening}
    (hx : x ∈ (acts.foldl (fun j a => ((perform a).exec j).2) j).notes) :
    x ∈ j.notes ∨ ∃ a ∈ acts, a.Accounts j.context.scope x.1 x.2 := by
  induction acts generalizing j with
  | nil => exact .inl hx
  | cons a acts ih =>
    -- the other requests are accounted for in the scope that this one leaves
    have hscope : ((perform a).exec j).2.context.scope = j.context.scope := by
      obtain ⟨_, -, hevolves⟩ := keeps_perform a j
      exact hevolves.scope
    obtain ⟨notes, hnotes, haccounts⟩ := gains_perform a j
    rcases ih _ hx with hx | ⟨b, hb, hx⟩
    · rw [hnotes] at hx
      rcases List.mem_append.mp hx with hx | hx
      · exact .inl hx
      · exact .inr ⟨a, List.mem_cons_self, haccounts x hx⟩
    · exact .inr ⟨b, List.mem_cons_of_mem a hb, hscope ▸ hx⟩

end Journal

/-! ## Sessions -/

/-- Whether a request can bring an invariant of a form into the slice over a key of a point whose
views are open. -/
def Action.Renews (scope : Scope) (c : Catalog) (id : Nat) (key : List Nat) (form : Invariant) :
    Action → Prop
  | openViews i min _ => i = id ∧ scope.Offers c min key form
  | atPoint i (.openViews other min _) => i = id ∧ other.Offers c min key form
  | atPoint i (.addInvariant vars inv) => i = id ∧ vars.mergeSort = key ∧ inv.form = form
  | _ => False

namespace Context

variable {ctx : Context} {id : Nat} {p : Point}

theorem accounts_of_mem_happenings {acts : List Action} {h : Happening}
    (hmem : h ∈ ctx.happenings acts id) : ∃ a ∈ acts, a.Accounts ctx.scope id h := by
  obtain ⟨⟨i, k⟩, hx, hk⟩ := List.mem_filterMap.mp hmem
  dsimp only at hk
  split at hk
  · next heq =>
    cases hk
    subst heq
    rcases Journal.accounts_foldl acts _ hx with hx | haccounts
    · cases hx
    · exact haccounts
  · cases hk

/-- What brings an invariant to a point whose views are open is a request that asks for it. -/
theorem renews_of_brings (hopen : p.viewsOpen) {hs : List Happening} {q : Point}
    (hsteps : p.Steps hs q) {h : Happening} (hmem : h ∈ hs) {key : List Nat} {form : Invariant}
    (hbrings : h.Brings key form) {a : Action} {scope : Scope} (ha : a.Accounts scope id h) :
    a.Renews scope p.catalog id key form := by
  cases h with
  | opened before other min =>
    obtain ⟨hbefore, hcatalog⟩ := hsteps.before_viewsOpen hopen hmem
    have hoffers : other.Offers p.catalog min key form := by
      rw [← hcatalog]
      exact Scope.offers_of_mem_candidates hbrings
    rcases ha.opened with ⟨limit, rfl⟩ | ⟨rfl, hclosed | ⟨limit, rfl⟩⟩
    · exact ⟨rfl, hoffers⟩
    · -- a sample opens the views of a point only while they are closed
      rw [hclosed] at hbefore
      cases hbefore
    · exact ⟨rfl, hoffers⟩
  | filled vars inv =>
    obtain rfl := ha.filled
    exact ⟨rfl, hbrings⟩
  | took => exact hbrings.elim
  | sliceOpened => exact hbrings.elim
  | sliceRemoved => exact hbrings.elim

/-- **Falsified invariants come back only as new ones, on request.** Take a point whose views are
open, as they are once it took a sample. Whatever happens later, an invariant that is alive there was
alive before, or it has a new number and one of the requests was to open slices over its variables,
for which it is a candidate, or to put it there by hand. A request to open slices that succeeds
brings every candidate of its range back, and each time there was no slice for it left. -/
theorem renewed_by_request (hp : ctx.points[id]? = some p) (hopen : p.viewsOpen) :
    (∀ acts : List Action, ∃ q, (ctx.after acts).points[id]? = some q ∧
      ∀ key form n, q.IsAlive key form n → p.IsAlive key form n ∨
        p.nextId ≤ n ∧ ∃ a ∈ acts, a.Renews ctx.scope p.catalog id key form) ∧
    ∀ (min limit k : Nat) (ctx' : Context),
      (openViews id min limit).exec ctx = (.ok k, ctx') → ∃ q, ctx'.points[id]? = some q ∧
        ∀ key inv, inv ∈ ctx.scope.candidates p min key →
          p.slice? key = none ∧ ∃ n, p.nextId ≤ n ∧ q.IsAlive key inv.form n := by
  refine ⟨fun acts => ?_, fun min limit k ctx' hexec => ?_⟩
  · obtain ⟨q, hq, hsteps⟩ := steps_of_point hp acts
    refine ⟨q, hq, fun key form n halive => ?_⟩
    rcases hsteps.isAlive halive with halive | ⟨hnew, h, hmem, hbrings⟩
    · exact .inl halive
    · obtain ⟨a, ha, haccounts⟩ := accounts_of_mem_happenings hmem
      exact .inr ⟨hnew, a, ha, renews_of_brings hopen hsteps hmem hbrings haccounts⟩
  · rw [exec_openViews, exec_atPoint_some hp] at hexec
    obtain ⟨hresult, rfl⟩ := Prod.mk.inj hexec
    refine ⟨_, List.getElem?_set_self (lt_of_point hp), fun key inv hinv => ?_⟩
    exact Point.isAlive_of_openViews (Prod.ext hresult rfl) hinv

/-- A point takes four object identities, the second of them `null`. -/
def identities : List Action :=
  .addPoint "P" [{ name := "h", type := .hashcode }] ::
    [1, 0, 2, 3].map fun v => .add 0 ⟨[some ⟨.int v, true⟩]⟩ 1

/-- Nothing is left of the slice. It stays closed when another sample comes, but is opened again on
request. -/
theorem renewed_by_request_identities :
    let form : Invariant := .nonZero { hashcode := true }
    let ctx := standard.after identities
    (∃ q, (ctx.after [.add 0 ⟨[some ⟨.int 5, true⟩]⟩ 1, .addImplications 0]).points[0]? = some q ∧
      ∀ n, ¬q.IsAlive [0] form n) ∧
    ∃ q, ((openViews 0 0 1).exec ctx).2.points[0]? = some q ∧
      ∃ n, 2 ≤ n ∧ q.IsAlive [0] form n := by
  intro form ctx
  obtain ⟨p, hp, hpair⟩ := Option.map_eq_some_iff.mp
    (show ctx.points[0]?.map (fun p => (p.slices, p.viewsOpen, p.nextId,
        decide (form ∈ ctx.scope.candidates p 0 [0]))) = some ([], true, 2, true) by
      decide +kernel)
  obtain ⟨hslices, hopen, hnext, hcandidate⟩ : p.slices = [] ∧ p.viewsOpen = true ∧
      p.nextId = 2 ∧ form ∈ ctx.scope.candidates p 0 [0] := by simpa using hpair
  obtain ⟨hstays, hrenewed⟩ := renewed_by_request hp hopen
  constructor
  · obtain ⟨q, hq, halive⟩ := hstays [.add 0 ⟨[some ⟨.int 5, true⟩]⟩ 1, .addImplications 0]
    refine ⟨q, hq, fun n hn => ?_⟩
    rcases halive [0] form n hn with ⟨s, hs, -⟩ | ⟨-, a, ha, hrenews⟩
    · rw [hslices] at hs
      cases hs
    · obtain rfl | rfl : a = _ ∨ a = _ := by simpa using ha
      · exact hrenews
      · exact hrenews
  · have hsuccess : ((openViews 0 0 1).exec ctx).1.isOk := by decide +kernel
    rcases hexec : (openViews 0 0 1).exec ctx with ⟨e | k, ctx'⟩
    · rw [hexec] at hsuccess
      cases hsuccess
    · obtain ⟨q, hq, halive⟩ := hrenewed 0 1 k ctx' hexec
      obtain ⟨-, n, hn, hform⟩ := halive [0] form hcandidate
      exact ⟨q, hq, n, hnext ▸ hn, hform⟩

/-- An invariant is falsified and comes to life again. -/
theorem falsified_again_alive :
    let form : Invariant := .nonZero { hashcode := true }
    (standard.after (identities.take 2)).points[0]?.any (·.IsAlive [0] form 1) ∧
      (standard.after (identities.take 3)).points[0]?.any (fun p => !p.IsAlive [0] form 1) ∧
      (standard.after identities).points[0]?.map (·.slices) = some [] ∧
      (standard.after (identities ++ [.openViews 0 0 1])).points[0]?.any
        (·.IsAlive [0] form 3) := by
  decide +kernel

end Context

end LikelyInvariants
