import LikelyInvariants.Invariant.Factory

/-!
# Feeding an invariant

What one tuple can do to an invariant, kind by kind, as long as the invariant survives it. Every
fact about runs of tuples is proved from these. The first such fact is about the counters: a
survivor has counted every tuple it was fed (`Invariant.samples_addAll?`).
-/

namespace LikelyInvariants

/-! ## One tuple -/

section Inversion

variable {t : Tuple} {n : Nat}

theorem OneOf.add?_eq_some {s s' : OneOf} (h : s.add? t n = some s') :
    ∃ v rest values, t.values = v :: rest ∧ track? s.values v = some values ∧
      s' = { s with values, samples := s.samples + n } := by
  unfold add? at h
  split at h
  · next v rest hv =>
    obtain ⟨values, hvalues, rfl⟩ := Option.map_eq_some_iff.mp h
    exact ⟨v, rest, values, hv, hvalues, rfl⟩
  · cases h

/-- A bound moves to a value beyond it and stays where it is otherwise. -/
theorem Bound.add?_eq_some {s s' : Bound} (h : s.add? t n = some s') :
    ∃ v rest, t.values = .int v :: rest ∧ s'.side = s.side ∧ s'.samples = s.samples + n ∧
      ((s'.extremum = some v ∧ ∀ c, s.extremum = some c → s.side.beyond v c) ∨
        ∃ c, s.extremum = some c ∧ s'.extremum = some c ∧ s.side.beyond v c = false) := by
  unfold add? at h
  split at h
  · next v rest hv =>
    refine ⟨v, rest, hv, ?_⟩
    cases hc : s.extremum with
    | none =>
      simp only [hc, Option.some.injEq] at h
      subst h
      exact ⟨rfl, rfl, .inl ⟨rfl, by simp⟩⟩
    | some c =>
      simp only [hc] at h
      split at h
      · next heq =>
        subst heq
        simp only [Option.some.injEq] at h
        subst h
        refine ⟨rfl, rfl, .inr ⟨v, rfl, rfl, ?_⟩⟩
        cases s.side <;> simp [Side.beyond]
      · split at h
        · next hbeyond =>
          simp only [Option.some.injEq] at h
          subst h
          exact ⟨rfl, rfl, .inl ⟨rfl, by simpa using hbeyond⟩⟩
        · next hbeyond =>
          simp only [Option.some.injEq] at h
          subst h
          exact ⟨rfl, rfl, .inr ⟨c, rfl, rfl, by simpa using hbeyond⟩⟩
  · cases h

theorem NonZero.add?_eq_some {s s' : NonZero} (h : s.add? t n = some s') :
    ∃ v rest, t.values = .int v :: rest ∧ v.toInt ≠ 0 ∧
      s' = { s with samples := s.samples + n } := by
  unfold add? at h
  split at h
  · next v rest hv =>
    split at h
    · cases h
    · next hne =>
      simp only [Option.some.injEq] at h
      exact ⟨v, rest, hv, hne, h.symm⟩
  · cases h

theorem ElementOneOf.add?_eq_some {s s' : ElementOneOf} (h : s.add? t n = some s') :
    ∃ v rest elements values, t.values = v :: rest ∧ v.elements? = some elements ∧
      elements.foldlM track? s.values = some values ∧
      s' = { values, samples := s.samples + n } := by
  unfold add? at h
  split at h
  · next v rest hv =>
    obtain ⟨elements, helements, h⟩ := Option.bind_eq_some_iff.mp h
    obtain ⟨values, hvalues, h⟩ := Option.bind_eq_some_iff.mp h
    simp only [Option.some.injEq] at h
    exact ⟨v, rest, elements, values, hv, helements, hvalues, h.symm⟩
  · cases h

theorem NonEmpty.add?_eq_some {s s' : NonEmpty} (h : s.add? t n = some s') :
    ∃ v rest k, t.values = v :: rest ∧ v.length? = some (k + 1) ∧
      s' = { samples := s.samples + n } := by
  unfold add? at h
  split at h
  · next k rest hv =>
    obtain ⟨v, rest', hvalues, hlength, -⟩ := List.map_eq_cons_iff.mp hv
    simp only [Option.some.injEq] at h
    exact ⟨v, rest', k, hvalues, hlength, h.symm⟩
  · cases h

theorem Compared.add?_eq_some {s s' : Compared} (h : s.add? t n = some s') :
    ∃ a b rest, t.values = .int a :: .int b :: rest ∧ s.op.eval a b ∧
      s' = { s with samples := s.samples + n } := by
  unfold add? at h
  split at h
  · next a b rest hv =>
    split at h
    · next heval =>
      simp only [Option.some.injEq] at h
      exact ⟨a, b, rest, hv, heval, h.symm⟩
    · cases h
  · cases h

theorem Linear.add?_eq_some {s s' : Linear} (h : s.add? t n = some s') :
    ∃ x y rest fit, t.values = .int x :: .int y :: rest ∧ s.fit.add? x y = some fit ∧
      s' = { fit, samples := s.samples + n } := by
  unfold add? at h
  split at h
  · next x y rest hv =>
    obtain ⟨fit, hfit, rfl⟩ := Option.map_eq_some_iff.mp h
    exact ⟨x, y, rest, fit, hv, hfit, rfl⟩
  · cases h

theorem Combination.add?_eq_some {s s' : Combination} (h : s.add? t n = some s') :
    ∃ x y z rest, t.values = .int x :: .int y :: .int z :: rest ∧
      s.op.eval? (pickResult s.result x y z).2.1 (pickResult s.result x y z).2.2 =
        some (pickResult s.result x y z).1 ∧
      s' = { s with samples := s.samples + n } := by
  unfold add? at h
  split at h
  · next x y z rest hv =>
    dsimp only at h
    split at h
    · next heval =>
      simp only [Option.some.injEq] at h
      exact ⟨x, y, z, rest, hv, heval, h.symm⟩
    · cases h
  · cases h

end Inversion

/-! ## Counters -/

section Counters

/-- A survivor has counted the tuple. -/
theorem Invariant.samples_add? {t : Tuple} {n : Nat} {inv inv' : Invariant}
    (h : inv.add? t n = some inv') : inv'.samples = inv.samples + n := by
  cases inv <;> obtain ⟨s', hs, rfl⟩ := Option.map_eq_some_iff.mp h
  case oneOf =>
    obtain ⟨v, rest, values, -, -, rfl⟩ := OneOf.add?_eq_some hs
    rfl
  case bound =>
    obtain ⟨v, rest, -, -, hsamples, -⟩ := Bound.add?_eq_some hs
    exact hsamples
  case nonZero =>
    obtain ⟨v, rest, -, -, rfl⟩ := NonZero.add?_eq_some hs
    rfl
  case elementOneOf =>
    obtain ⟨v, rest, elements, values, -, -, -, rfl⟩ := ElementOneOf.add?_eq_some hs
    rfl
  case nonEmpty =>
    obtain ⟨v, rest, k, -, -, rfl⟩ := NonEmpty.add?_eq_some hs
    rfl
  case compared =>
    obtain ⟨a, b, rest, -, -, rfl⟩ := Compared.add?_eq_some hs
    rfl
  case linear =>
    obtain ⟨x, y, rest, fit, -, -, rfl⟩ := Linear.add?_eq_some hs
    rfl
  case combination =>
    obtain ⟨x, y, z, rest, -, -, rfl⟩ := Combination.add?_eq_some hs
    rfl

/-- How many there are in all. -/
def total {α : Type} : List (α × Nat) → Nat
  | [] => 0
  | x :: log => x.2 + total log

@[simp] theorem total_nil {α : Type} : total ([] : List (α × Nat)) = 0 := rfl

@[simp] theorem total_cons {α : Type} (x : α × Nat) (log : List (α × Nat)) :
    total (x :: log) = x.2 + total log := rfl

@[simp] theorem total_append {α : Type} (log more : List (α × Nat)) :
    total (log ++ more) = total log + total more := by
  induction log with
  | nil => simp
  | cons x log ih =>
    rw [List.cons_append, total_cons, ih, total_cons]
    omega

theorem le_total_of_mem {α : Type} {x : α × Nat} :
    ∀ {log : List (α × Nat)}, x ∈ log → x.2 ≤ total log
  | y :: log, h => by
    rw [total_cons]
    rcases List.mem_cons.mp h with rfl | h
    · exact Nat.le_add_right _ _
    · exact Nat.le_trans (le_total_of_mem h) (Nat.le_add_left _ _)

/-- The invariant after some tuples, each seen a number of times, or nothing if one of them
falsifies it. -/
def Invariant.addAll? (ts : List (Tuple × Nat)) (inv : Invariant) : Option Invariant :=
  ts.foldlM (fun inv t => inv.add? t.1 t.2) inv

@[simp] theorem Invariant.addAll?_nil (inv : Invariant) : inv.addAll? [] = some inv := rfl

theorem Invariant.addAll?_cons (t : Tuple × Nat) (ts : List (Tuple × Nat)) (inv : Invariant) :
    inv.addAll? (t :: ts) = (inv.add? t.1 t.2).bind (·.addAll? ts) := rfl

theorem Invariant.addAll?_append (ts us : List (Tuple × Nat)) (inv : Invariant) :
    inv.addAll? (ts ++ us) = (inv.addAll? ts).bind (·.addAll? us) := List.foldlM_append

/-- A survivor has counted all tuples. -/
theorem Invariant.samples_addAll? {ts : List (Tuple × Nat)} {inv inv' : Invariant}
    (h : inv.addAll? ts = some inv') : inv'.samples = inv.samples + total ts := by
  induction ts generalizing inv with
  | nil =>
    cases h
    rfl
  | cons t ts ih =>
    rw [addAll?_cons] at h
    obtain ⟨next, hnext, hrest⟩ := Option.bind_eq_some_iff.mp h
    rw [ih hrest, samples_add? hnext, total_cons]
    omega

end Counters

/-! ## Candidates -/

section Candidates

/-- An invariant that was not fed: it has counted nothing and picked up no constants. -/
inductive Invariant.IsFresh : Invariant → Prop
  | oneOf (type : VarType) : IsFresh (.oneOf { type })
  | bound (side : Side) : IsFresh (.bound { side })
  | nonZero (hashcode : Bool) : IsFresh (.nonZero { hashcode })
  | elementOneOf : IsFresh (.elementOneOf {})
  | nonEmpty : IsFresh (.nonEmpty {})
  | compared (op : Comparison) : IsFresh (.compared { op })
  | linear : IsFresh (.linear {})
  | combination (op : Operation) (result : Fin 3) : IsFresh (.combination { op, result })

theorem Invariant.IsFresh.samples {inv : Invariant} (h : inv.IsFresh) : inv.samples = 0 := by
  cases h <;> rfl

/-- The candidates of a kind are fresh, are of that kind, and are for as many variables as it wants. -/
theorem Kind.of_mem_candidates {k : Kind} {vars : List Variable} {inv : Invariant}
    (h : inv ∈ k.candidates vars) : inv.IsFresh ∧ inv.kind = k ∧ vars.length = k.arity := by
  unfold candidates at h
  split at h
  case h_1 =>
    obtain rfl := List.mem_singleton.mp h
    exact ⟨.oneOf _, rfl, rfl⟩
  case h_8 =>
    split at h
    · obtain ⟨result, -, rfl⟩ := List.mem_map.mp h
      exact ⟨.combination _ result, rfl, rfl⟩
    · simp at h
  case h_9 => simp at h
  all_goals
    split at h
    · obtain rfl := List.mem_singleton.mp h
      exact ⟨by constructor, rfl, rfl⟩
    · simp at h

theorem Kind.isFresh_of_mem_candidates {k : Kind} {vars : List Variable} {inv : Invariant}
    (h : inv ∈ k.candidates vars) : inv.IsFresh :=
  (of_mem_candidates h).1

theorem Kind.kind_of_mem_candidates {k : Kind} {vars : List Variable} {inv : Invariant}
    (h : inv ∈ k.candidates vars) : inv.kind = k :=
  (of_mem_candidates h).2.1

/-- These factories make nothing but fresh invariants. -/
def Factories.MakeFresh (fs : Factories) : Prop :=
  ∀ vars, ∀ inv ∈ fs.candidates vars, inv.IsFresh

theorem Factories.mem_candidates {fs : Factories} {vars : List Variable} {inv : Invariant} :
    inv ∈ fs.candidates vars ↔
      ∃ f ∈ fs.list, f.arity = vars.length ∧ inv ∈ f.maker.candidates vars := by
  simp [candidates, and_assoc]

theorem Factories.exists_of_mem_candidates_ofKinds {ks : List Kind} {vars : List Variable}
    {inv : Invariant} (h : inv ∈ (ofKinds ks).candidates vars) :
    ∃ k ∈ ks, inv ∈ k.candidates vars := by
  obtain ⟨f, hf, -, hinv⟩ := mem_candidates.mp h
  obtain ⟨k, hk, rfl⟩ := List.mem_map.mp hf
  exact ⟨k, hk, hinv⟩

/-- The factories of kinds do. -/
theorem Factories.makeFresh_ofKinds (ks : List Kind) : (ofKinds ks).MakeFresh := by
  intro vars inv h
  obtain ⟨k, -, hinv⟩ := exists_of_mem_candidates_ofKinds h
  exact Kind.isFresh_of_mem_candidates hinv

theorem Factories.kind_of_mem_candidates_ofKinds {ks : List Kind} {vars : List Variable}
    {inv : Invariant} (h : inv ∈ (ofKinds ks).candidates vars) : inv.kind ∈ ks := by
  obtain ⟨k, hk, hinv⟩ := exists_of_mem_candidates_ofKinds h
  rwa [Kind.kind_of_mem_candidates hinv]

end Candidates

end LikelyInvariants
