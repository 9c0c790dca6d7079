import LikelyInvariants.Proofs.Falsification
import LikelyInvariants.Proofs.Keys

/-!
# Invariants and the slices they are in

An invariant is about as many variables as its kind says, and looks at that many values of a tuple.
A tuple with fewer falsifies it, and with fewer symbols it has no formula
(`Invariant.arity_le_of_add?`, `Invariant.arity_le_of_renderWith`), whatever it states.

Neither happens unless the caller asks for it. The factories of kinds make invariants for as many
variables as they are given (`Factories.makeFitting_ofKinds`). If all factories in use do, and an
invariant that is put into a slice by hand is not about more variables than are named for it, then
every invariant of every point gets the values and the symbols that it looks at
(`Context.fits_after`).
-/

namespace LikelyInvariants

/-! ## What an invariant looks at -/

namespace Invariant

theorem arity_le_of_add? {t : Tuple} {n : Nat} {inv inv' : Invariant}
    (h : inv.add? t n = some inv') : inv.kind.arity ≤ t.values.length := by
  cases inv <;> obtain ⟨s', hs, rfl⟩ := Option.map_eq_some_iff.mp h
  case oneOf =>
    obtain ⟨v, rest, values, hvalues, -⟩ := OneOf.add?_eq_some hs
    simp [kind, Kind.arity, hvalues]
  case bound =>
    obtain ⟨v, rest, hvalues, -⟩ := Bound.add?_eq_some hs
    simp [kind, Kind.arity, hvalues]
  case nonZero =>
    obtain ⟨v, rest, hvalues, -⟩ := NonZero.add?_eq_some hs
    simp [kind, Kind.arity, hvalues]
  case elementOneOf =>
    obtain ⟨v, rest, elements, values, hvalues, -⟩ := ElementOneOf.add?_eq_some hs
    simp [kind, Kind.arity, hvalues]
  case nonEmpty =>
    obtain ⟨v, rest, k, hvalues, -⟩ := NonEmpty.add?_eq_some hs
    simp [kind, Kind.arity, hvalues]
  case compared =>
    obtain ⟨a, b, rest, hvalues, -⟩ := Compared.add?_eq_some hs
    simp [kind, Kind.arity, hvalues]
  case linear =>
    obtain ⟨x, y, rest, fit, hvalues, -⟩ := Linear.add?_eq_some hs
    simp [kind, Kind.arity, hvalues]
  case combination =>
    obtain ⟨x, y, z, rest, hvalues, -⟩ := Combination.add?_eq_some hs
    simp [kind, Kind.arity, hvalues]

theorem arity_le_of_renderWith {d : Dialect} {symbols : List String} {inv : Invariant}
    {formula : String} (h : inv.renderWith d symbols = some formula) :
    inv.kind.arity ≤ symbols.length := by
  unfold renderWith at h
  split at h
  case h_9 => cases h
  all_goals simp [kind, Kind.arity]

theorem kind_form (inv : Invariant) : inv.form.kind = inv.kind := by
  cases inv <;> rfl

end Invariant

/-! ## Candidates and requests that fit -/

/-- These factories make no invariant about more variables than it is made for. -/
def Factories.MakeFitting (fs : Factories) : Prop :=
  ∀ vars, ∀ inv ∈ fs.candidates vars, inv.kind.arity ≤ vars.length

theorem Factories.makeFitting_ofKinds (ks : List Kind) : (ofKinds ks).MakeFitting := by
  intro vars inv h
  obtain ⟨k, -, hinv⟩ := exists_of_mem_candidates_ofKinds h
  obtain ⟨-, rfl, harity⟩ := Kind.of_mem_candidates hinv
  exact Nat.le_of_eq harity.symm

/-- What happened brings no invariant into a slice of too few variables. -/
def Happening.Fits : Happening → Prop
  | opened _ scope _ => scope.factories.MakeFitting
  | filled vars inv => inv.kind.arity ≤ vars.length
  | took _ _ | sliceOpened _ | sliceRemoved _ => True

/-- Nothing that a request names is about more variables than are named with it. -/
def Action.Fits : Action → Prop
  | atPoint _ (.openViews scope _ _) => scope.factories.MakeFitting
  | atPoint _ (.addInvariant vars inv) => inv.kind.arity ≤ vars.length
  | _ => True

theorem Happening.Fits.arity_le {h : Happening} (hfits : h.Fits) {key : List Nat}
    {form : Invariant} (hbrings : h.Brings key form) : form.kind.arity ≤ key.length := by
  cases h with
  | opened before scope min =>
    obtain ⟨inv, hinv, rfl⟩ := List.mem_map.mp hbrings
    rw [Invariant.kind_form]
    exact Nat.le_trans (hfits _ inv (Scope.mem_factories_candidates hinv))
      (List.length_filterMap_le _ _)
  | filled vars inv =>
    obtain ⟨rfl, rfl⟩ := hbrings
    rw [Invariant.kind_form, List.length_mergeSort]
    exact hfits
  | took => exact hbrings.elim
  | sliceOpened => exact hbrings.elim
  | sliceRemoved => exact hbrings.elim

theorem Action.Accounts.fits {scope : Scope} {a : Action} {id : Nat} {h : Happening}
    (haccounts : a.Accounts scope id h) (hmake : scope.factories.MakeFitting) (hfits : a.Fits) :
    h.Fits := by
  cases h with
  | opened =>
    rcases haccounts.opened with ⟨limit, rfl⟩ | ⟨rfl, -⟩
    · exact hfits
    · exact hmake
  | filled =>
    obtain rfl := haccounts.filled
    exact hfits
  | took => trivial
  | sliceOpened => trivial
  | sliceRemoved => trivial

/-! ## Points and sessions -/

/-- No invariant of the slice is about more variables than the slice is over. -/
def Slice.Fits (s : Slice) : Prop := ∀ e ∈ s.entries, e.inv.kind.arity ≤ s.key.length

/-- Steps that bring fitting invariants lead from fitting slices to fitting slices. -/
theorem Point.Steps.fits {p q : Point} {hs : List Happening} (h : p.Steps hs q)
    (hbefore : ∀ s ∈ p.slices, s.Fits) (hfits : ∀ k ∈ hs, k.Fits) : ∀ s ∈ q.slices, s.Fits := by
  intro s hs' e he
  -- the kind can be read from the form, which samples leave as it was brought
  rw [← e.inv.kind_form]
  have halive : q.IsAlive s.key e.inv.form e.id := ⟨s, hs', rfl, e, he, rfl, rfl⟩
  rcases h.isAlive halive with ⟨t, ht, hkey, f, hf, -, hform⟩ | ⟨-, k, hk, hbrings⟩
  · rw [← hkey, ← hform, Invariant.kind_form]
    exact hbefore t ht f hf
  · exact (hfits k hk).arity_le hbrings

/-- What a slice that fits feeds to its invariants has the values they look at. -/
theorem Slice.Fits.values {s : Slice} (h : s.Fits) {c : Catalog} {x : Sample} {t : Tuple}
    (ht : c.project? s.key x = some t) : ∀ e ∈ s.entries, e.inv.kind.arity ≤ t.values.length := by
  intro e he
  obtain ⟨rs, hrs, rfl⟩ := Catalog.project?_eq_some ht
  have hlength : s.key.length = rs.length := by simpa using congrArg List.length hrs
  simpa [Tuple.ofReadings, ← hlength] using h e he

theorem Slice.Fits.names {s : Slice} (h : s.Fits) {c : Catalog} (hkey : ∀ i ∈ s.key, i < c.size) :
    ∀ e ∈ s.entries, e.inv.kind.arity ≤ (c.names s.key).length := by
  intro e he
  rw [Catalog.names_eq_map hkey, List.length_map]
  exact h e he

/-- **No invariant gets too few values or too few symbols**, as long as none is put by hand into a
slice of fewer variables than it is about, and the factories make none. -/
theorem Context.fits_after {ctx : Context} (hempty : ctx.points = [])
    (hmake : ctx.scope.factories.MakeFitting) {acts : List Action} (hfits : ∀ a ∈ acts, a.Fits)
    {id : Nat} {q : Point} (hq : (ctx.after acts).points[id]? = some q) {s : Slice}
    (hs : s ∈ q.slices) {e : SliceEntry} (he : e ∈ s.entries) :
    (∀ x t, q.catalog.project? s.key x = some t → e.inv.kind.arity ≤ t.values.length) ∧
      e.inv.kind.arity ≤ (q.catalog.names s.key).length := by
  obtain ⟨p, hfresh, hsteps⟩ := steps_after hempty acts hq
  have hslice : s.Fits := by
    refine hsteps.fits (fun t ht => ?_) (fun h hmem => ?_) s hs
    · rw [hfresh.slices] at ht
      cases ht
    · obtain ⟨a, ha, haccounts⟩ := accounts_of_mem_happenings hmem
      exact haccounts.fits hmake (hfits a ha)
  have hkeyed : q.Keyed := Attained.keyed ⟨ctx, acts, hempty, rfl⟩ hq
  exact ⟨fun x t ht => hslice.values ht e he, hslice.names (hkeyed.lt s hs) e he⟩

end LikelyInvariants
