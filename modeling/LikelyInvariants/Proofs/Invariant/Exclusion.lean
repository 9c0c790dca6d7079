import LikelyInvariants.Proofs.Invariant.Meaning

/-!
# Invariants that exclude each other

Two invariants that are said to exclude each other are never both true of one tuple
(`Invariant.not_holds_of_excludes`). The check looks at kinds and constants, and goes by the
equality of values as numbers and texts; that this equality is symmetric and transitive is what
makes it sound for the tracked values, a NaN among them included. It is also what makes the check
itself symmetric (`Invariant.excludes_comm`).

Being true of a tuple is not the same as having accepted it. A NaN is tracked, but is not equal to
what is tracked then. So two lists of tracked values may exclude each other although both have the
same NaN; this is the only way in which a tuple can have been accepted by both
(`Invariant.excludes_addAll?`).
-/

namespace LikelyInvariants

/-! ## Equal values -/

section Equal

theorem compareSeq?_length {α : Type} {cmp : α → α → Option Ordering} :
    ∀ {as bs : List α}, compareSeq? cmp as bs = some .eq → as.length = bs.length
  | [], [], _ => rfl
  | a :: as, b :: bs, h => by
    rw [List.length_cons, List.length_cons, compareSeq?_length (compareSeq?_cons.mp h).2]

/-- Equal sequences have as many elements. -/
theorem Value.equals_length {v w : Value} (h : v.equals w) : v.length? = w.length? := by
  rw [equals_iff] at h
  cases v <;> cases w <;> simp only [compare?, reduceCtorEq] at h
  case intSeq.intSeq => simp [length?, elements?, compareSeq?_length h]
  case floatSeq.floatSeq => simp [length?, elements?, compareSeq?_length h]
  case strSeq.strSeq => simp [length?, elements?, compareSeq?_length h]
  all_goals rfl

theorem Value.equals_int {a b : Int64} (h : (int a).equals (int b)) : a = b := by
  rw [equals_iff] at h
  exact compareInt_eq.mp (Option.some.inj h)

end Equal

/-! ## Kind by kind -/

section Excludes

/-- Lists of values that share none, not even one that is written differently. -/
theorem OneOf.not_isAmong_of_excludes {s t : OneOf} {v : Value} (h : s.excludes t)
    (hs : v.isAmong s.values) : ¬v.isAmong t.values := by
  intro ht
  unfold excludes at h
  simp only [Bool.and_eq_true] at h
  obtain ⟨w, hw, hwv⟩ := Value.isAmong_iff.mp hs
  obtain ⟨u, hu, huv⟩ := Value.isAmong_iff.mp ht
  have hwu : w.isAmong t.values :=
    Value.isAmong_iff.mpr ⟨u, hu, Value.equals_trans huv (Value.equals_symm hwv)⟩
  have hnot := List.all_eq_true.mp h.2 w hw
  simp [hwu] at hnot

/-- The only tracked value, where there is only one. -/
theorem equals_of_isAmong_singleton {v w : Value} (h : v.isAmong [w]) : w.equals v := by
  obtain ⟨u, hu, huv⟩ := Value.isAmong_iff.mp h
  rwa [List.mem_singleton.mp hu] at huv

theorem OneOf.eq_zero_of_isZero {s : OneOf} {n : Int64} (h : s.isZero)
    (hamong : (Value.int n).isAmong s.values) : n.toInt = 0 := by
  unfold isZero at h
  split at h
  · next v hv =>
    rw [hv] at hamong
    have hzero := Value.equals_trans (Value.equals_symm (equals_of_isAmong_singleton hamong)) h
    rw [Value.equals_int hzero]
    rfl
  · cases h

theorem OneOf.elements_eq_nil_of_isEmptySequence {s : OneOf} {v : Value} {elements : List Value}
    (h : s.isEmptySequence) (hknown : v.isAmong s.values ∨ v ∈ s.values)
    (helements : v.elements? = some elements) : elements = [] := by
  unfold isEmptySequence at h
  split at h
  · next w hw =>
    rw [hw] at hknown
    have hsame : v.length? = w.length? := by
      rcases hknown with hamong | hmem
      · exact (Value.equals_length (equals_of_isAmong_singleton hamong)).symm
      · rw [List.mem_singleton.mp hmem]
    have hlength := hsame.trans (beq_iff_eq.mp h)
    simpa [Value.length?, helements] using hlength
  · cases h

/-- Bounds that leave no value between them. -/
theorem Bound.not_holds_of_excludes {s t : Bound} {c d : Int64} {v : Int} (h : s.excludes t)
    (hc : s.extremum = some c) (hd : t.extremum = some d) (hs : s.side.Holds c.toInt v) :
    ¬t.side.Holds d.toInt v := by
  intro ht
  unfold excludes at h
  rw [hc, hd] at h
  cases hside : s.side <;> cases hside' : t.side <;>
    simp only [hside, hside', Side.Holds, decide_eq_true_eq, Bool.false_eq_true] at h hs ht <;>
    omega

theorem Comparison.not_holds_of_excludes {op other : Comparison} {a b : Int64}
    (h : op.excludes other) (hop : op.Holds a.toInt b.toInt) : ¬other.Holds a.toInt b.toInt := by
  intro hother
  have hop := holds_iff.mpr hop
  have hother := holds_iff.mpr hother
  unfold eval at hop hother
  have hmem : compareInt a b ∈ [Ordering.lt, .eq, .gt] := by
    cases compareInt a b <;> simp
  have hnot := List.all_eq_true.mp h _ hmem
  simp [hop, hother] at hnot

/-- Parallel lines. -/
theorem Linear.not_holds_of_excludes {s t : Linear} {x y : Int} (h : s.excludes t)
    (hs : s.fit.Holds x y) : ¬t.fit.Holds x y := by
  intro ht
  unfold excludes at h
  split at h
  · next a₁ b₁ a₂ b₂ hfit hfit' =>
    simp only [Bool.and_eq_true, decide_eq_true_eq] at h
    obtain ⟨rfl, hne⟩ := h
    rw [hfit] at hs
    rw [hfit'] at ht
    simp only [LineFit.Holds] at hs ht
    exact hne (Int64.toInt_inj.mp (by omega))
  · cases h

/-- Invariants that exclude each other are not both true of one tuple. -/
theorem Invariant.not_holds_of_excludes {inv other : Invariant} {vs : List Value}
    (h : inv.excludes other) (hinv : inv.Holds vs) : ¬other.Holds vs := by
  intro hother
  cases inv <;> cases other <;> simp only [excludes, Bool.false_eq_true] at h
  case oneOf.oneOf s t =>
    obtain ⟨v, rest, rfl, hs⟩ := hinv
    obtain ⟨_, _, ⟨⟩, ht⟩ := hother
    exact OneOf.not_isAmong_of_excludes h hs ht
  case oneOf.nonZero s t =>
    obtain ⟨v, rest, rfl, hs⟩ := hinv
    obtain ⟨_, _, ⟨⟩, hne⟩ := hother
    exact hne (OneOf.eq_zero_of_isZero h hs)
  case nonZero.oneOf s t =>
    obtain ⟨_, rest, rfl, hne⟩ := hinv
    obtain ⟨_, _, ⟨⟩, ht⟩ := hother
    exact hne (OneOf.eq_zero_of_isZero h ht)
  case oneOf.nonEmpty s t =>
    obtain ⟨v, rest, rfl, hs⟩ := hinv
    obtain ⟨_, _, elements, ⟨⟩, helements, hne⟩ := hother
    exact hne (OneOf.elements_eq_nil_of_isEmptySequence h (.inl hs) helements)
  case nonEmpty.oneOf s t =>
    obtain ⟨v, rest, elements, rfl, helements, hne⟩ := hinv
    obtain ⟨_, _, ⟨⟩, ht⟩ := hother
    exact hne (OneOf.elements_eq_nil_of_isEmptySequence h (.inl ht) helements)
  case bound.bound s t =>
    obtain ⟨v, rest, c, rfl, hc, hs⟩ := hinv
    obtain ⟨_, _, d, ⟨⟩, hd, ht⟩ := hother
    exact Bound.not_holds_of_excludes h hc hd hs ht
  case compared.compared s t =>
    obtain ⟨a, b, rest, rfl, hs⟩ := hinv
    obtain ⟨_, _, _, ⟨⟩, ht⟩ := hother
    exact Comparison.not_holds_of_excludes h hs ht
  case linear.linear s t =>
    obtain ⟨x, y, rest, rfl, hs⟩ := hinv
    obtain ⟨_, _, _, ⟨⟩, ht⟩ := hother
    exact Linear.not_holds_of_excludes h hs ht

end Excludes

/-! ## Symmetry -/

section Symmetry

theorem OneOf.excludes_symm {s t : OneOf} (h : s.excludes t) : t.excludes s := by
  unfold excludes at *
  simp only [Bool.and_eq_true, List.all_eq_true, Bool.not_eq_true', ← Bool.not_eq_true] at *
  refine ⟨⟨h.1.2, h.1.1⟩, fun v hv hamong => ?_⟩
  obtain ⟨w, hw, heq⟩ := Value.isAmong_iff.mp hamong
  exact h.2 w hw (Value.isAmong_iff.mpr ⟨v, hv, Value.equals_symm heq⟩)

theorem Bound.excludes_comm (s t : Bound) : s.excludes t = t.excludes s := by
  unfold excludes
  cases s.side <;> cases t.side <;> cases s.extremum <;> cases t.extremum <;> rfl

theorem Comparison.excludes_comm (op other : Comparison) :
    op.excludes other = other.excludes op := by
  unfold excludes
  simp only [Bool.and_comm]

theorem Linear.excludes_comm (s t : Linear) : s.excludes t = t.excludes s := by
  unfold excludes
  cases s.fit <;> cases t.fit <;> simp [eq_comm]

/-- Which of two invariants is asked does not matter. -/
theorem Invariant.excludes_comm (inv other : Invariant) :
    inv.excludes other = other.excludes inv := by
  cases inv <;> cases other
  case oneOf.oneOf s t => exact Bool.eq_iff_iff.mpr ⟨OneOf.excludes_symm, OneOf.excludes_symm⟩
  case bound.bound s t => exact Bound.excludes_comm s t
  case compared.compared s t => exact Comparison.excludes_comm s.op t.op
  case linear.linear s t => exact Linear.excludes_comm s t
  all_goals rfl

end Symmetry

/-! ## Accepted tuples -/

section Accepted

namespace Invariant

variable {t : Tuple} {n : Nat} {inv inv' other other' : Invariant} {vs : List Value}

/-- Whether the value that the invariant sees has a NaN and was tracked. -/
def TracksNaN : Invariant → List Value → Prop
  | oneOf s, v :: _ => v.hasNaN ∧ v ∈ s.values
  | elementOneOf _, v :: _ => v.hasNaN
  | _, _ => False

/-- What an invariant says of a tuple once it has accepted it. -/
def Accepts (inv : Invariant) (vs : List Value) : Prop := inv.Holds vs ∨ inv.TracksNaN vs

theorem accepts_add? (h : inv.add? t n = some inv') : inv'.Accepts t.values := by
  by_cases hnan : ∀ v ∈ t.values.head?, inv.kind.tracks → v.hasNaN = false
  · exact .inl (holds_add? h hnan)
  · simp only [not_forall, Bool.not_eq_false] at hnan
    obtain ⟨v, hv, htracks, hnan⟩ := hnan
    obtain ⟨rest, hvalues⟩ := List.head?_eq_some_iff.mp hv
    rw [hvalues]
    cases inv with
    | oneOf s =>
      obtain ⟨s', hs, rfl⟩ := Option.map_eq_some_iff.mp h
      obtain ⟨v', rest', values, hvalues', htrack, rfl⟩ := OneOf.add?_eq_some hs
      obtain ⟨rfl, rfl⟩ := List.cons.inj (hvalues.symm.trans hvalues')
      rcases isAmong_or_mem_of_track? htrack with hamong | hmem
      · exact .inl ⟨v, rest, rfl, hamong⟩
      · exact .inr ⟨hnan, hmem⟩
    | elementOneOf s =>
      obtain ⟨s', -, rfl⟩ := Option.map_eq_some_iff.mp h
      exact .inr hnan
    | _ => cases htracks

theorem TracksNaN.add? (htracks : inv.TracksNaN vs) (h : inv.add? t n = some inv') :
    inv'.TracksNaN vs := by
  cases inv <;> cases vs <;> try exact htracks.elim
  case oneOf.cons s v rest =>
    obtain ⟨s', hs, rfl⟩ := Option.map_eq_some_iff.mp h
    obtain ⟨_, _, values, -, htrack, rfl⟩ := OneOf.add?_eq_some hs
    exact ⟨htracks.1, track?_subset htrack htracks.2⟩
  case elementOneOf.cons s v rest =>
    obtain ⟨s', -, rfl⟩ := Option.map_eq_some_iff.mp h
    exact htracks

theorem accepts_addAll? {ts : List (Tuple × Nat)} (h : inv.addAll? ts = some inv') :
    ∀ x ∈ ts, inv'.Accepts x.1.values := by
  intro x hx
  refine (addAll?_induction (P := Accepts) (Q := fun _ => True)
    (fun hadd _ => accepts_add? hadd) (fun hadd haccepts => ?_) h).1 x hx trivial
  exact haccepts.imp (·.add? hadd) (·.add? hadd)

theorem kind_eq_oneOf_of_tracksNaN (h : inv.excludes other) (hinv : inv.TracksNaN vs)
    (hother : other.Accepts vs) : inv.kind = .oneOf ∧ other.kind = .oneOf := by
  cases inv <;> cases vs <;> try exact hinv.elim
  case oneOf.cons s v rest =>
    cases other <;> simp only [excludes, Bool.false_eq_true] at h
    case oneOf t => exact ⟨rfl, rfl⟩
    case nonZero t =>
      obtain ⟨w, rest', hv, -⟩ | hnan := hother
      · cases hv
        exact absurd hinv.1 (by simp [Value.hasNaN])
      · exact hnan.elim
    case nonEmpty t =>
      obtain ⟨w, rest', elements, hv, helements, hne⟩ | hnan := hother
      · cases hv
        exact absurd (OneOf.elements_eq_nil_of_isEmptySequence h (.inr hinv.2) helements) hne
      · exact hnan.elim
  case elementOneOf.cons s v rest => exact absurd h Bool.false_ne_true

theorem TracksNaN.hasNaN (h : inv.TracksNaN vs) : ∃ v ∈ vs.head?, v.hasNaN := by
  cases inv <;> cases vs <;> try exact h.elim
  case oneOf.cons s v rest => exact ⟨v, rfl, h.1⟩
  case elementOneOf.cons s v rest => exact ⟨v, rfl, h⟩

/-- Invariants that exclude each other have both accepted a tuple only if both track its NaN. -/
theorem hasNaN_of_excludes (h : inv.excludes other) (hinv : inv.Accepts vs)
    (hother : other.Accepts vs) :
    inv.kind = .oneOf ∧ other.kind = .oneOf ∧ ∃ v ∈ vs.head?, v.hasNaN := by
  rcases hinv with hholds | htracks
  · rcases hother with hholds' | htracks'
    · exact absurd hholds' (not_holds_of_excludes h hholds)
    · rw [excludes_comm] at h
      obtain ⟨hkind', hkind⟩ := kind_eq_oneOf_of_tracksNaN h htracks' (.inl hholds)
      exact ⟨hkind, hkind', htracks'.hasNaN⟩
  · obtain ⟨hkind, hkind'⟩ := kind_eq_oneOf_of_tracksNaN h htracks hother
    exact ⟨hkind, hkind', htracks.hasNaN⟩

/-- **Exclusion is symmetric, and right up to NaN.** Of two invariants that were fed any tuples and
survived, the one excludes the other just if the other excludes the one. If they do and both have
accepted a tuple, then both are lists of values and the tuple begins with a NaN, or with a sequence
that has one. -/
theorem excludes_addAll? {ts us : List (Tuple × Nat)} (h : inv.addAll? ts = some inv')
    (k : other.addAll? us = some other') :
    inv'.excludes other' = other'.excludes inv' ∧
    (inv'.excludes other' → ∀ x ∈ ts, ∀ y ∈ us, x.1.values = y.1.values →
      inv'.kind = .oneOf ∧ other'.kind = .oneOf ∧ ∃ v ∈ x.1.values.head?, v.hasNaN) := by
  refine ⟨excludes_comm inv' other', fun hexcludes x hx y hy hsame => ?_⟩
  have hother := accepts_addAll? k y hy
  rw [← hsame] at hother
  exact hasNaN_of_excludes hexcludes (accepts_addAll? h x hx) hother

/-- Bounds with no value between them. -/
theorem excludes_addAll?_bounds :
    ∃ low high, (bound { side := .lower }).addAll?
        [(⟨[.int 7], .modified⟩, 1), (⟨[.int 5], .unmodified⟩, 2)] = some low ∧
      (bound { side := .upper }).addAll? [(⟨[.int 3], .modified⟩, 1)] = some high ∧
      low.excludes high ∧ high.excludes low := by
  obtain ⟨low, hlow⟩ : ∃ low, (bound { side := .lower }).addAll?
      [(⟨[.int 7], .modified⟩, 1), (⟨[.int 5], .unmodified⟩, 2)] = some low := ⟨_, rfl⟩
  obtain ⟨high, hhigh⟩ : ∃ high, (bound { side := .upper }).addAll?
      [(⟨[.int 3], .modified⟩, 1)] = some high := ⟨_, rfl⟩
  have hexcludes : low.excludes high := by
    cases hlow
    cases hhigh
    decide
  have hsymm := (excludes_addAll? hlow hhigh).1
  exact ⟨low, high, hlow, hhigh, hexcludes, hsymm ▸ hexcludes⟩

/-- A list of values that excludes itself, after the one tuple it has accepted. -/
theorem nan_excludes_itself :
    ∃ inv, (oneOf { type := .float }).addAll? [(⟨[.float ⟨0x7ff8000000000000⟩], .modified⟩, 1)] =
        some inv ∧ inv.excludes inv := by
  exact ⟨_, rfl, by decide⟩

end Invariant

end Accepted

end LikelyInvariants
