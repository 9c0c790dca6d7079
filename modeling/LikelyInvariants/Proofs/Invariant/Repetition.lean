import LikelyInvariants.Proofs.Invariant.Meaning

/-!
# Counts add up

Feeding a tuple `m` times and then `n` times should be feeding it `m + n` times at once. The second
feeding meets another state than the first one did: a value that has just been tracked, a bound that
has just moved. Each of these accepts the tuple again and has nothing more to learn from it, as long
as its values equal themselves.

A line is the exception. The pair that fixes a line need not pass the check that is made of later
pairs, since the slope times its `x` is not computed to find the line, and can take more than 64
bits (`LineFit.Overreaches`). Then the pair is accepted once and refused when it comes again
(`Invariant.add?_twice`).
-/

namespace LikelyInvariants

/-! ## Values that are tracked already -/

section Tracked

theorem track?_of_isAmong {v : Value} {vs : List Value} (h : v.isAmong vs) :
    track? vs v = some vs := by
  rw [track?, if_pos h]

theorem foldlM_track?_of_isAmong {elements vs : List Value} (h : ∀ e ∈ elements, e.isAmong vs) :
    elements.foldlM track? vs = some vs := by
  induction elements with
  | nil => rfl
  | cons e elements ih =>
    rw [List.foldlM_cons, track?_of_isAmong (h e List.mem_cons_self)]
    exact ih fun e' he' => h e' (List.mem_cons_of_mem e he')

end Tracked

/-! ## A pair that comes again -/

namespace LineFit

section Again

variable {x y : Int64} {fit fit' : LineFit}

/-- Whether the pair fixes the line, but is too far out to be checked against it. -/
def Overreaches (fit : LineFit) (x y : Int64) : Prop :=
  ∃ x₁ y₁ a b, fit = through x₁ y₁ ∧ x ≠ x₁ ∧ Joins a b x₁ y₁ x y ∧ ¬IsWord (a.toInt * x.toInt)

/-- A pair that does not overreach is accepted again and changes nothing. -/
theorem add?_again (h : fit.add? x y = some fit') (hreach : ¬fit.Overreaches x y) :
    fit'.add? x y = some fit' := by
  rcases add?_cases h with
    ⟨-, rfl⟩ | ⟨x₁, y₁, a, b, rfl, hx, rfl, hjoins⟩ | ⟨a, b, rfl, rfl, -, -⟩
  · simp [add?]
  · have hword : IsWord (a.toInt * x.toInt) := by
      by_contra hword
      exact hreach ⟨x₁, y₁, a, b, rfl, hx, hjoins, hword⟩
    rw [add?, if_pos (passes_iff.mpr ⟨hword, hjoins.second⟩)]
  · exact h

/-- A pair that overreaches is accepted once. -/
theorem Overreaches.add? (h : fit.Overreaches x y) :
    ∃ fit', fit.add? x y = some fit' ∧ fit'.add? x y = none := by
  obtain ⟨x₁, y₁, a, b, rfl, hx, hjoins, hword⟩ := h
  refine ⟨line a b, ?_, ?_⟩
  · rw [LineFit.add?, if_neg hx, hjoins.solve? hx]
  · exact if_neg fun hpasses => hword (passes_iff.mp hpasses).1

end Again

end LineFit

/-! ## Kind by kind -/

section Kinds

variable {t : Tuple} (m n : Nat)

theorem OneOf.add?_add? (s : OneOf) (hnan : ∀ v ∈ t.values, v.hasNaN = false) :
    (s.add? t m).bind (·.add? t n) = s.add? t (m + n) := by
  unfold add?
  cases hv : t.values with
  | nil => rfl
  | cons v rest =>
    cases htrack : track? s.values v with
    | none => simp [htrack]
    | some values =>
      have hamong : v.isAmong values := isAmong_of_track? htrack (hnan v (by simp [hv]))
      simp [htrack, track?_of_isAmong hamong, Nat.add_assoc]

theorem ElementOneOf.add?_add? (s : ElementOneOf) (hnan : ∀ v ∈ t.values, v.hasNaN = false) :
    (s.add? t m).bind (·.add? t n) = s.add? t (m + n) := by
  unfold add?
  cases hv : t.values with
  | nil => rfl
  | cons v rest =>
    cases helements : v.elements? with
    | none => simp [helements]
    | some elements =>
      cases htrack : elements.foldlM track? s.values with
      | none => simp [helements, htrack]
      | some values =>
        have hamong : ∀ e ∈ elements, e.isAmong values := fun e he =>
          (foldlM_track? htrack).2.2 e he
            (Value.hasNaN_of_mem_elements helements (hnan v (by simp [hv])) he)
        simp [helements, htrack, foldlM_track?_of_isAmong hamong, Nat.add_assoc]

/-- The extremum has moved at most once, and the samples on it have been counted since. -/
theorem Bound.add?_add? (s : Bound) :
    (s.add? t m).bind (·.add? t n) = s.add? t (m + n) := by
  unfold add?
  split
  · next v rest hv =>
    cases hc : s.extremum with
    | none => simp [Nat.add_assoc]
    | some c =>
      by_cases heq : v = c
      · simp [heq, Nat.add_assoc]
      · by_cases hbeyond : s.side.beyond v c
        · simp [heq, hbeyond, Nat.add_assoc]
        · simp [heq, hbeyond, Nat.add_assoc]
  · rfl

theorem NonZero.add?_add? (s : NonZero) :
    (s.add? t m).bind (·.add? t n) = s.add? t (m + n) := by
  unfold add?
  split
  · split <;> simp_all [Nat.add_assoc]
  · rfl

theorem NonEmpty.add?_add? (s : NonEmpty) :
    (s.add? t m).bind (·.add? t n) = s.add? t (m + n) := by
  unfold add?
  split <;> simp_all [Nat.add_assoc]

theorem Compared.add?_add? (s : Compared) :
    (s.add? t m).bind (·.add? t n) = s.add? t (m + n) := by
  unfold add?
  split
  · split <;> simp_all [Nat.add_assoc]
  · rfl

theorem Combination.add?_add? (s : Combination) :
    (s.add? t m).bind (·.add? t n) = s.add? t (m + n) := by
  unfold add?
  split
  · dsimp only
    split <;> simp_all [Nat.add_assoc]
  · rfl

end Kinds

namespace Invariant

section Repetition

variable {inv : Invariant} {t : Tuple} {m n : Nat}

/-- Whether the invariant is a line which the tuple fixes, but too far out to be checked against
it. -/
def Overreaches (inv : Invariant) (t : Tuple) : Prop :=
  ∃ s x y rest, inv = linear s ∧ t.values = .int x :: .int y :: rest ∧ s.fit.Overreaches x y

theorem linear_add?_add? {s : Linear} (hreach : ¬(linear s).Overreaches t) :
    (s.add? t m).bind (·.add? t n) = s.add? t (m + n) := by
  unfold Linear.add?
  split
  · next x y rest hv =>
    cases hfit : s.fit.add? x y with
    | none => rfl
    | some fit =>
      have hagain : fit.add? x y = some fit :=
        LineFit.add?_again hfit fun hover => hreach ⟨s, x, y, rest, rfl, hv, hover⟩
      simp [hagain, Nat.add_assoc]
  · rfl

/-- What holds of the states of one kind holds of the invariants of that kind. -/
theorem bind_add?_of_kind {σ : Type} {wrap : σ → Invariant} {first once : Option σ}
    {again : σ → Option σ} (hagain : ∀ s, (wrap s).add? t n = (again s).map wrap)
    (h : first.bind again = once) : (first.map wrap).bind (·.add? t n) = once.map wrap := by
  rw [← h, Option.map_bind, Option.bind_map]
  exact congrArg first.bind (funext hagain)

theorem add?_add?_of_not_overreaches (hnan : ∀ v ∈ t.values, v.hasNaN = false)
    (hreach : ¬inv.Overreaches t) : (inv.add? t m).bind (·.add? t n) = inv.add? t (m + n) := by
  cases inv with
  | oneOf s => exact bind_add?_of_kind (fun _ => rfl) (s.add?_add? m n hnan)
  | bound s => exact bind_add?_of_kind (fun _ => rfl) (s.add?_add? m n)
  | nonZero s => exact bind_add?_of_kind (fun _ => rfl) (s.add?_add? m n)
  | elementOneOf s => exact bind_add?_of_kind (fun _ => rfl) (s.add?_add? m n hnan)
  | nonEmpty s => exact bind_add?_of_kind (fun _ => rfl) (s.add?_add? m n)
  | compared s => exact bind_add?_of_kind (fun _ => rfl) (s.add?_add? m n)
  | linear s => exact bind_add?_of_kind (fun _ => rfl) (linear_add?_add? hreach)
  | combination s => exact bind_add?_of_kind (fun _ => rfl) (s.add?_add? m n)

/-- A tuple that overreaches is accepted, but not a second time. -/
theorem Overreaches.add? (h : inv.Overreaches t) (m n : Nat) :
    ∃ first, inv.add? t m = some first ∧ first.add? t n = none := by
  obtain ⟨s, x, y, rest, rfl, hv, hover⟩ := h
  obtain ⟨fit, hfit, hrefused⟩ := hover.add?
  refine ⟨linear { fit, samples := s.samples + m }, ?_, ?_⟩
  · simp [Invariant.add?, Linear.add?, hv, hfit]
  · simp [Invariant.add?, Linear.add?, hv, hrefused]

/-- **Counts add up, unless a pair overreaches.** Feeding a tuple twice and feeding it once with the
counts taken together give the same survivor, or none, as long as its values have no NaN and it does
not overreach. A tuple that overreaches is accepted with any count, but falsifies the line that it
has fixed when it is fed again. -/
theorem add?_twice (inv : Invariant) (t : Tuple) (m n : Nat)
    (hnan : ∀ v ∈ t.values, v.hasNaN = false) :
    (¬inv.Overreaches t → (inv.add? t m).bind (·.add? t n) = inv.add? t (m + n)) ∧
    (inv.Overreaches t →
      (∃ first, inv.add? t m = some first ∧ first.add? t n = none) ∧
        ∃ once, inv.add? t (m + n) = some once) := by
  refine ⟨add?_add?_of_not_overreaches hnan, fun hreach => ⟨hreach.add? m n, ?_⟩⟩
  obtain ⟨once, honce, -⟩ := hreach.add? (m + n) n
  exact ⟨once, honce⟩

/-- A new value is tracked, and then it is among the tracked ones; a line through
`(2 ^ 62 - 1, 0)` and `(2 ^ 62, 2)` has the slope 2, and `2 * 2 ^ 62` has more than 64 bits. -/
theorem add?_twice_tracked_line :
    ((oneOf { type := .int }).add? ⟨[.int 7], .modified⟩ 2).bind (·.add? ⟨[.int 7], .modified⟩ 3) =
      (oneOf { type := .int }).add? ⟨[.int 7], .modified⟩ 5 ∧
    ∃ first, (linear { fit := .through 4611686018427387903 0 }).add?
        ⟨[.int 4611686018427387904, .int 2], .modified⟩ 1 = some first ∧
      first.add? ⟨[.int 4611686018427387904, .int 2], .modified⟩ 1 = none := by
  constructor
  · refine (add?_twice (oneOf { type := .int }) ⟨[.int 7], .modified⟩ 2 3 (by decide)).1 ?_
    rintro ⟨s, x, y, rest, hinv, -⟩
    cases hinv
  · refine ((add?_twice _ _ 1 1 (by decide)).2 ⟨_, _, _, [], rfl, rfl, ?_⟩).1
    exact ⟨_, _, 2, -9223372036854775806, rfl, by decide,
      ⟨by decide, by decide, by decide, by decide, by decide, by decide⟩, by decide⟩

/-- A run on a fresh line that is refused because of how the same pairs are counted. -/
theorem second_pair_refused_again :
    let near : Tuple := ⟨[.int 4611686018427387903, .int 0], .modified⟩
    let far : Tuple := ⟨[.int 4611686018427387904, .int 2], .modified⟩
    (linear {}).addAll? [(near, 1), (far, 1), (far, 1)] = none ∧
      (linear {}).addAll? [(near, 1), (far, 2)] =
        some (linear { fit := .line 2 (-9223372036854775806), samples := 3 }) := by
  decide

end Repetition

end Invariant

end LikelyInvariants
