import LikelyInvariants.Proofs.Invariant.Meaning
import LikelyInvariants.Proofs.Value.Order

/-!
# Tuples in any order

Two tuples can be fed to an invariant in either order: it survives both orders or none, and is left
the same (`Invariant.add?_comm`). For the kinds that keep values this is so because they keep them
sorted, which takes values with a linear order. For a bound it is so because the samples on the
extremum are those that have come since it moved there and no others. A line is the exception, since
it is fixed by the pairs that come first.

So a run of tuples comes to the same in any order (`Invariant.addAll?_perm`).
-/

namespace LikelyInvariants

/-! ## Steps that can be swapped -/

section Swapping

variable {σ α : Type} {step : σ → α → Option σ} {I : σ → Prop} {fits : α → Prop}

/-- Steps that keep an invariant, and can be swapped where it holds, come to the same in any
order. -/
theorem foldlM_perm_of_swap
    (hkeep : ∀ {s s' a}, I s → fits a → step s a = some s' → I s')
    (hswap : ∀ {s next last a b}, I s → fits a → fits b → step s a = some next →
      step next b = some last → ∃ next', step s b = some next' ∧ step next' a = some last)
    {as bs : List α} (hperm : as.Perm bs) (has : ∀ a ∈ as, fits a) {s : σ} (hs : I s) :
    as.foldlM step s = bs.foldlM step s := by
  -- where one order has a result, the other one has the same
  have hsame {as bs : List α} (hperm : as.Perm bs) (has : ∀ a ∈ as, fits a) {s last : σ} (hs : I s)
      (hlast : as.foldlM step s = some last) : bs.foldlM step s = some last := by
    induction hperm generalizing s with
    | nil => exact hlast
    | cons a _ ih =>
      obtain ⟨next, hnext, hrest⟩ := Option.bind_eq_some_iff.mp hlast
      have hnow := hkeep hs (has a List.mem_cons_self) hnext
      rw [List.foldlM_cons, hnext]
      exact ih (fun b hb => has b (List.mem_cons_of_mem a hb)) hnow hrest
    | swap b a as =>
      obtain ⟨next, hnext, hrest⟩ := Option.bind_eq_some_iff.mp hlast
      obtain ⟨both, hboth, hrest⟩ := Option.bind_eq_some_iff.mp hrest
      obtain ⟨next', hnext', hboth'⟩ := hswap hs (has a (by simp)) (has b (by simp)) hnext hboth
      rw [List.foldlM_cons, hnext', Option.bind_eq_bind, Option.bind_some, List.foldlM_cons, hboth']
      exact hrest
    | trans hab _ ih ih' => exact ih' (fun a ha => has a (hab.mem_iff.mpr ha)) hs (ih has hs hlast)
  have hbs : ∀ b ∈ bs, fits b := fun b hb => has b (hperm.mem_iff.mpr hb)
  exact Option.ext fun _ => ⟨hsame hperm has hs, hsame hperm.symm hbs hs⟩

end Swapping

/-! ## Tuples of values of some types -/

section Typed

variable {types : List VarType} {t : Tuple} {k : Kind} {u : VarType} {w : Value}

/-- The values of a tuple are of the given types. -/
def Tuple.HasTypes (types : List VarType) (t : Tuple) : Prop :=
  List.Forall₂ (fun u v => u.accepts v) types t.values

/-- The type of the values that an invariant keeps over variables of some types, if it keeps
some. -/
def Kind.trackedType? : Kind → List VarType → Option VarType
  | oneOf, t :: _ => some t
  | elementOneOf, t :: _ => t.element?
  | _, _ => none

theorem VarType.isFloating_element? {t : VarType} (ht : t.isFloating = false)
    (h : t.element? = some u) : u.isFloating = false := by
  cases t <;> simp_all [element?, isFloating] <;> subst h <;> rfl

/-- The elements of a sequence are of the type of elements. -/
theorem VarType.accepts_of_mem_elements {t : VarType} {v : Value} {elements : List Value}
    (hv : t.accepts v) (ht : t.element? = some u) (h : v.elements? = some elements)
    (hw : w ∈ elements) : u.accepts w := by
  cases t <;> cases v <;> simp_all [accepts, element?, Value.elements?] <;>
    subst ht <;> subst h <;> obtain ⟨_, -, rfl⟩ := List.mem_map.mp hw <;> rfl

/-- Only sequences have elements. -/
theorem VarType.exists_element? {t : VarType} {v : Value} {elements : List Value}
    (hv : t.accepts v) (h : v.elements? = some elements) : ∃ u, t.element? = some u := by
  cases t <;> cases v <;> simp_all [accepts, element?, Value.elements?]

theorem Kind.isFloating_trackedType? (htypes : ∀ t ∈ types, t.isFloating = false)
    (h : k.trackedType? types = some u) : u.isFloating = false := by
  unfold trackedType? at h
  split at h
  · cases h
    exact htypes _ List.mem_cons_self
  · exact VarType.isFloating_element? (htypes _ List.mem_cons_self) h
  · cases h

/-- What is seen of a tuple is of the type that is kept. -/
theorem Kind.accepts_of_mem_seen (h : k.trackedType? types = some u) (ht : t.HasTypes types)
    (hw : w ∈ k.seen t.values) : u.accepts w := by
  unfold trackedType? at h
  split at h
  · cases h
    unfold Tuple.HasTypes at ht
    obtain ⟨v, rest, hv, -, hvalues⟩ := List.forall₂_cons_left_iff.mp ht
    simp only [hvalues, seen, List.mem_singleton] at hw
    exact hw ▸ hv
  · obtain ⟨v, rest, hv, -, hvalues⟩ := List.forall₂_cons_left_iff.mp ht
    simp only [hvalues, seen] at hw
    cases helements : v.elements? with
    | none => simp [helements] at hw
    | some elements =>
      rw [helements, Option.getD_some] at hw
      exact VarType.accepts_of_mem_elements hv h helements hw
  · cases h

end Typed

/-! ## What is kept -/

section Kept

variable {types : List VarType} {seen : Value → Prop} {inv inv' : Invariant} {t : Tuple} {n : Nat}

/-- An invariant keeps what it has seen, in ascending order. -/
def Invariant.Keeps (types : List VarType) (seen : Value → Prop) (inv : Invariant) : Prop :=
  ∀ u, inv.kind.trackedType? types = some u → Tracks u seen inv.tracked

theorem Invariant.IsFresh.keeps (h : inv.IsFresh) (types : List VarType) :
    inv.Keeps types fun _ => False := by
  intro u _
  rw [h.tracked]
  exact tracks_nil u

/-- The values that are seen are tracked one after the other. -/
theorem Invariant.tracked_add? {u : VarType} (h : inv.add? t n = some inv')
    (hu : inv.kind.trackedType? types = some u) :
    (inv.kind.seen t.values).foldlM track? inv.tracked = some inv'.tracked := by
  cases inv <;> obtain ⟨s', hs, rfl⟩ := Option.map_eq_some_iff.mp h
  case oneOf =>
    obtain ⟨v, rest, values, hv, htrack, rfl⟩ := OneOf.add?_eq_some hs
    simpa [kind, Kind.seen, tracked, hv] using htrack
  case elementOneOf =>
    obtain ⟨v, rest, elements, values, hv, helements, htrack, rfl⟩ := ElementOneOf.add?_eq_some hs
    simpa [kind, Kind.seen, tracked, hv, helements] using htrack
  all_goals cases types <;> cases hu

/-- An invariant that keeps values only survives values of a type that it can keep. -/
theorem Invariant.exists_trackedType? (h : inv.add? t n = some inv') (ht : t.HasTypes types)
    (htracks : inv.kind.tracks) : ∃ u, inv.kind.trackedType? types = some u := by
  cases inv <;> obtain ⟨s', hs, rfl⟩ := Option.map_eq_some_iff.mp h
  case oneOf =>
    obtain ⟨v, rest, values, hv, -⟩ := OneOf.add?_eq_some hs
    rw [Tuple.HasTypes, hv] at ht
    obtain ⟨u, others, -, -, rfl⟩ := List.forall₂_cons_right_iff.mp ht
    exact ⟨u, rfl⟩
  case elementOneOf =>
    obtain ⟨v, rest, elements, values, hv, helements, -⟩ := ElementOneOf.add?_eq_some hs
    rw [Tuple.HasTypes, hv] at ht
    obtain ⟨u, others, hu, -, rfl⟩ := List.forall₂_cons_right_iff.mp ht
    exact VarType.exists_element? hu helements
  all_goals cases htracks

/-- A survivor keeps what it has seen of the tuple as well. -/
theorem Invariant.Keeps.add? (hkeeps : inv.Keeps types seen)
    (htypes : ∀ t ∈ types, t.isFloating = false) (ht : t.HasTypes types)
    (h : inv.add? t n = some inv') :
    inv'.Keeps types fun w => w ∈ inv.kind.seen t.values ∨ seen w := by
  intro u hu
  rw [kind_add? h] at hu
  exact (hkeeps u hu).addAll (Kind.isFloating_trackedType? htypes hu)
    (fun w hw => Kind.accepts_of_mem_seen hu ht hw) (tracked_add? h hu)

/-- After a run it keeps what it has seen of all tuples. -/
theorem Invariant.Keeps.addAll? (hkeeps : inv.Keeps types seen)
    (htypes : ∀ t ∈ types, t.isFloating = false) {ts : List (Tuple × Nat)}
    (hts : ∀ x ∈ ts, x.1.HasTypes types) (h : inv.addAll? ts = some inv') :
    inv'.Keeps types fun w => (∃ x ∈ ts, w ∈ inv.kind.seen x.1.values) ∨ seen w := by
  induction ts generalizing inv seen with
  | nil =>
    cases h
    simpa using hkeeps
  | cons x ts ih =>
    rw [addAll?_cons] at h
    obtain ⟨next, hnext, hrest⟩ := Option.bind_eq_some_iff.mp h
    have hnow := hkeeps.add? htypes (hts x List.mem_cons_self) hnext
    intro u hu
    refine (ih hnow (fun y hy => hts y (List.mem_cons_of_mem x hy)) hrest u hu).congr fun w => ?_
    rw [kind_add? hnext, List.exists_mem_cons_iff, or_assoc]
    exact or_left_comm

end Kept

/-! ## Tuples that are swapped -/

section Swapped

variable {types : List VarType} {seen : Value → Prop} {t t' : Tuple} {m n : Nat}

theorem Tracks.swap {u : VarType} {us ws vs next last : List Value} (h : Tracks u seen vs)
    (hu : u.isFloating = false) (hus : ∀ v ∈ us, u.accepts v) (hws : ∀ v ∈ ws, u.accepts v)
    (hnext : us.foldlM track? vs = some next) (hlast : ws.foldlM track? next = some last) :
    ∃ next', ws.foldlM track? vs = some next' ∧ us.foldlM track? next' = some last := by
  have hall : (us ++ ws).foldlM track? vs = some last := by
    rw [List.foldlM_append, hnext]
    exact hlast
  rw [h.foldlM_perm hu List.perm_append_comm fun v hv =>
    (List.mem_append.mp hv).elim (hus v) (hws v), List.foldlM_append] at hall
  exact Option.bind_eq_some_iff.mp hall

theorem foldlM_track?_singleton {v : Value} {vs : List Value} :
    [v].foldlM track? vs = track? vs v := by
  simp

theorem OneOf.swap {s next last : OneOf} {u : VarType} (hs : Tracks u seen s.values)
    (hu : u.isFloating = false) (ht : ∀ v ∈ Kind.oneOf.seen t.values, u.accepts v)
    (ht' : ∀ v ∈ Kind.oneOf.seen t'.values, u.accepts v) (hnext : s.add? t m = some next)
    (hlast : next.add? t' n = some last) :
    ∃ next', s.add? t' n = some next' ∧ next'.add? t m = some last := by
  obtain ⟨v, rest, values, hv, htrack, rfl⟩ := add?_eq_some hnext
  obtain ⟨w, rest', values', hw, htrack', rfl⟩ := add?_eq_some hlast
  simp only [hv, hw, Kind.seen] at ht ht'
  obtain ⟨swapped, hfirst, hsecond⟩ :=
    hs.swap hu ht ht' (foldlM_track?_singleton.trans htrack) (foldlM_track?_singleton.trans htrack')
  rw [foldlM_track?_singleton] at hfirst hsecond
  refine ⟨{ s with values := swapped, samples := s.samples + n }, ?_, ?_⟩
  · simp [add?, hw, hfirst]
  · simp [add?, hv, hsecond, Nat.add_right_comm]

theorem ElementOneOf.swap {s next last : ElementOneOf} {u : VarType} (hs : Tracks u seen s.values)
    (hu : u.isFloating = false) (ht : ∀ v ∈ Kind.elementOneOf.seen t.values, u.accepts v)
    (ht' : ∀ v ∈ Kind.elementOneOf.seen t'.values, u.accepts v) (hnext : s.add? t m = some next)
    (hlast : next.add? t' n = some last) :
    ∃ next', s.add? t' n = some next' ∧ next'.add? t m = some last := by
  obtain ⟨v, rest, elements, values, hv, helements, htrack, rfl⟩ := add?_eq_some hnext
  obtain ⟨w, rest', elements', values', hw, helements', htrack', rfl⟩ := add?_eq_some hlast
  simp only [hv, hw, helements, helements', Kind.seen, Option.getD_some] at ht ht'
  obtain ⟨swapped, hfirst, hsecond⟩ := hs.swap hu ht ht' htrack htrack'
  refine ⟨{ values := swapped, samples := s.samples + n }, ?_, ?_⟩
  · simp [add?, hw, helements', hfirst]
  · simp [add?, hv, helements, hsecond, Nat.add_right_comm]

theorem NonZero.swap {s next last : NonZero} (hnext : s.add? t m = some next)
    (hlast : next.add? t' n = some last) :
    ∃ next', s.add? t' n = some next' ∧ next'.add? t m = some last := by
  obtain ⟨v, rest, hv, hne, rfl⟩ := add?_eq_some hnext
  obtain ⟨w, rest', hw, hne', rfl⟩ := add?_eq_some hlast
  refine ⟨{ s with samples := s.samples + n }, ?_, ?_⟩
  · simp [add?, hw, hne']
  · simp [add?, hv, hne, Nat.add_right_comm]

theorem NonEmpty.swap {s next last : NonEmpty} (hnext : s.add? t m = some next)
    (hlast : next.add? t' n = some last) :
    ∃ next', s.add? t' n = some next' ∧ next'.add? t m = some last := by
  obtain ⟨v, rest, k, hv, hlength, rfl⟩ := add?_eq_some hnext
  obtain ⟨w, rest', k', hw, hlength', rfl⟩ := add?_eq_some hlast
  refine ⟨{ samples := s.samples + n }, ?_, ?_⟩
  · simp [add?, hw, hlength']
  · simp [add?, hv, hlength, Nat.add_right_comm]

theorem Compared.swap {s next last : Compared} (hnext : s.add? t m = some next)
    (hlast : next.add? t' n = some last) :
    ∃ next', s.add? t' n = some next' ∧ next'.add? t m = some last := by
  obtain ⟨a, b, rest, hv, heval, rfl⟩ := add?_eq_some hnext
  obtain ⟨a', b', rest', hw, heval', rfl⟩ := add?_eq_some hlast
  refine ⟨{ s with samples := s.samples + n }, ?_, ?_⟩
  · simpa [add?, hw] using heval'
  · simpa [add?, hv, Nat.add_right_comm] using heval

theorem Combination.swap {s next last : Combination} (hnext : s.add? t m = some next)
    (hlast : next.add? t' n = some last) :
    ∃ next', s.add? t' n = some next' ∧ next'.add? t m = some last := by
  obtain ⟨x, y, z, rest, hv, heval, rfl⟩ := add?_eq_some hnext
  obtain ⟨x', y', z', rest', hw, heval', rfl⟩ := add?_eq_some hlast
  refine ⟨{ s with samples := s.samples + n }, ?_, ?_⟩
  · simpa [add?, hw] using heval'
  · simpa [add?, hv, Nat.add_right_comm] using heval

/-- Of two different values one lies beyond the other. -/
theorem Side.beyond_or {side : Side} {v w : Int64} (hne : v ≠ w) :
    side.beyond v w ∨ side.beyond w v := by
  have hint : v.toInt ≠ w.toInt := fun heq => hne (Int64.toInt_inj.mp heq)
  cases side <;> simp only [beyond, decide_eq_true_eq] <;> omega

theorem Side.beyond_asymm {side : Side} {v w : Int64} (h : side.beyond v w) :
    side.beyond w v = false := by
  cases side <;> simp only [beyond, decide_eq_true_eq, decide_eq_false_iff_not] at * <;> omega

theorem Side.beyond_trans {side : Side} {v w x : Int64} (h : side.beyond v w)
    (k : side.beyond w x) : side.beyond v x := by
  cases side <;> simp only [beyond, decide_eq_true_eq] at * <;> omega

/-- The samples on the extremum have come since it moved there, in whatever order. -/
theorem Bound.swap {s next last : Bound} (hnext : s.add? t m = some next)
    (hlast : next.add? t' n = some last) :
    ∃ next', s.add? t' n = some next' ∧ next'.add? t m = some last := by
  obtain ⟨v, rest, hv, -⟩ := add?_eq_some hnext
  obtain ⟨w, rest', hw, -⟩ := add?_eq_some hlast
  suffices hcomm : (s.add? t m).bind (·.add? t' n) = (s.add? t' n).bind (·.add? t m) by
    rw [hnext, Option.bind_some, hlast] at hcomm
    exact Option.bind_eq_some_iff.mp hcomm.symm
  have hvw : v ≠ w → s.side.beyond v w ∨ s.side.beyond w v := Side.beyond_or
  cases hc : s.extremum with
  | none =>
    simp only [add?, hv, hw, hc, Option.bind_some]
    grind [Side.beyond_asymm]
  | some c =>
    have hcv : c ≠ v → s.side.beyond c v ∨ s.side.beyond v c := Side.beyond_or
    have hcw : c ≠ w → s.side.beyond c w ∨ s.side.beyond w c := Side.beyond_or
    simp only [add?, hv, hw, hc]
    grind [Side.beyond_asymm, Side.beyond_trans]

namespace Invariant

variable {inv next last : Invariant}

/-- What can be swapped in the states of one kind can be swapped in the invariants of that kind. -/
theorem swap_of_kind {σ : Type} {wrap : σ → Invariant} {add : Tuple → Nat → σ → Option σ} {s s' : σ}
    (hadd : ∀ t n s, (wrap s).add? t n = (add t n s).map wrap)
    (h : ∃ next', add t' n s = some next' ∧ add t m next' = some s') :
    ∃ next', (wrap s).add? t' n = some next' ∧ next'.add? t m = some (wrap s') := by
  obtain ⟨next', hfirst, hsecond⟩ := h
  exact ⟨wrap next', by rw [hadd, hfirst]; rfl, by rw [hadd, hsecond]; rfl⟩

/-- Two tuples that an invariant survives can be swapped, unless it is a line. -/
theorem swap (hkeeps : inv.Keeps types seen) (htypes : ∀ t ∈ types, t.isFloating = false)
    (hkind : inv.kind ≠ .linear) (ht : t.HasTypes types) (ht' : t'.HasTypes types)
    (hnext : inv.add? t m = some next) (hlast : next.add? t' n = some last) :
    ∃ next', inv.add? t' n = some next' ∧ next'.add? t m = some last := by
  have htracked := exists_trackedType? hnext ht
  cases inv <;> obtain ⟨_, hfirst, rfl⟩ := Option.map_eq_some_iff.mp hnext <;>
    obtain ⟨_, hsecond, rfl⟩ := Option.map_eq_some_iff.mp hlast
  case oneOf s =>
    obtain ⟨u, hu⟩ := htracked rfl
    exact swap_of_kind (fun _ _ _ => rfl) <|
      OneOf.swap (hkeeps u hu) (Kind.isFloating_trackedType? htypes hu)
        (fun v hv => Kind.accepts_of_mem_seen hu ht hv)
        (fun v hv => Kind.accepts_of_mem_seen hu ht' hv) hfirst hsecond
  case elementOneOf s =>
    obtain ⟨u, hu⟩ := htracked rfl
    exact swap_of_kind (fun _ _ _ => rfl) <|
      ElementOneOf.swap (hkeeps u hu) (Kind.isFloating_trackedType? htypes hu)
        (fun v hv => Kind.accepts_of_mem_seen hu ht hv)
        (fun v hv => Kind.accepts_of_mem_seen hu ht' hv) hfirst hsecond
  case bound => exact swap_of_kind (fun _ _ _ => rfl) (Bound.swap hfirst hsecond)
  case nonZero => exact swap_of_kind (fun _ _ _ => rfl) (NonZero.swap hfirst hsecond)
  case nonEmpty => exact swap_of_kind (fun _ _ _ => rfl) (NonEmpty.swap hfirst hsecond)
  case compared => exact swap_of_kind (fun _ _ _ => rfl) (Compared.swap hfirst hsecond)
  case combination => exact swap_of_kind (fun _ _ _ => rfl) (Combination.swap hfirst hsecond)
  case linear => exact absurd rfl hkind

/-- A run of tuples comes to the same in any order. -/
theorem addAll?_perm (hkeeps : inv.Keeps types seen) (htypes : ∀ t ∈ types, t.isFloating = false)
    (hkind : inv.kind ≠ .linear) {ts us : List (Tuple × Nat)} (hperm : ts.Perm us)
    (hts : ∀ x ∈ ts, x.1.HasTypes types) : inv.addAll? ts = inv.addAll? us := by
  refine foldlM_perm_of_swap (I := fun inv => (∃ seen, inv.Keeps types seen) ∧ inv.kind ≠ .linear)
    ?_ ?_ hperm hts ⟨⟨seen, hkeeps⟩, hkind⟩
  · rintro inv next x ⟨⟨seen, hkeeps⟩, hkind⟩ hx hnext
    exact ⟨⟨_, hkeeps.add? htypes hx hnext⟩, fun heq => hkind ((kind_add? hnext).symm.trans heq)⟩
  · rintro inv next last x y ⟨⟨seen, hkeeps⟩, hkind⟩ hx hy hnext hlast
    exact swap hkeeps htypes hkind hx hy hnext hlast

end Invariant

end Swapped

end LikelyInvariants
