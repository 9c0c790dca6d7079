import LikelyInvariants.Invariant.OneOf
import Mathlib.Data.List.TakeDrop

/-!
# Equality of values

Equality as numbers and texts is symmetric and transitive, but not reflexive: a NaN differs from
itself, and so does a sequence that holds one. It is reflexive on the values without a NaN
(`Value.equals_self`). That is all that tracking distinct values needs: a value that was tracked is
among the tracked ones from then on (`isAmong_of_track?`), and every tracked value was seen
(`mem_of_track?`).
-/

namespace LikelyInvariants

/-! ## Partial orders -/

section Orders

variable {α : Type} {cmp : α → α → Option Ordering}

/-- Being equal in a partial order is symmetric and transitive. -/
structure EqualityLike (cmp : α → α → Option Ordering) : Prop where
  symm : ∀ {a b}, cmp a b = some .eq → cmp b a = some .eq
  trans : ∀ {a b c}, cmp a b = some .eq → cmp b c = some .eq → cmp a c = some .eq

theorem compareInt_eq {a b : Int64} : compareInt a b = .eq ↔ a = b := by
  unfold compareInt
  rw [Std.LawfulEqOrd.compare_eq_iff_eq]
  exact Int64.toInt_inj

theorem Binary64.compare?_eq {x y : Binary64} :
    x.compare? y = some .eq ↔ x.isNaN = false ∧ y.isNaN = false ∧ x.key = y.key := by
  unfold compare?
  cases x.isNaN <;> cases y.isNaN <;> simp

theorem equalityLike_int : EqualityLike fun a b => some (compareInt a b) where
  symm h := by
    simp only [Option.some.injEq, compareInt_eq] at *
    exact h.symm
  trans h k := by
    simp only [Option.some.injEq, compareInt_eq] at *
    exact h.trans k

theorem equalityLike_string : EqualityLike fun a b : String => some (compare a b) where
  symm h := by
    simp only [Option.some.injEq, Std.LawfulEqOrd.compare_eq_iff_eq] at *
    exact h.symm
  trans h k := by
    simp only [Option.some.injEq, Std.LawfulEqOrd.compare_eq_iff_eq] at *
    exact h.trans k

theorem equalityLike_binary64 : EqualityLike Binary64.compare? where
  symm h := by
    rw [Binary64.compare?_eq] at *
    exact ⟨h.2.1, h.1, h.2.2.symm⟩
  trans h k := by
    rw [Binary64.compare?_eq] at *
    exact ⟨h.1, k.2.1, h.2.2.trans k.2.2⟩

theorem compareSeq?_cons {a b : α} {as bs : List α} :
    compareSeq? cmp (a :: as) (b :: bs) = some .eq ↔
      cmp a b = some .eq ∧ compareSeq? cmp as bs = some .eq := by
  rw [compareSeq?]
  constructor
  · intro h
    split at h
    · next heq => exact ⟨heq, h⟩
    · next hne => exact absurd h hne
  · rintro ⟨heq, hrest⟩
    rw [heq]
    exact hrest

theorem compareSeq?_symm (hcmp : EqualityLike cmp) :
    ∀ {as bs : List α}, compareSeq? cmp as bs = some .eq → compareSeq? cmp bs as = some .eq
  | [], [], h => h
  | a :: as, b :: bs, h => by
    obtain ⟨hfirst, hrest⟩ := compareSeq?_cons.mp h
    exact compareSeq?_cons.mpr ⟨hcmp.symm hfirst, compareSeq?_symm hcmp hrest⟩

theorem compareSeq?_trans (hcmp : EqualityLike cmp) :
    ∀ {as bs cs : List α}, compareSeq? cmp as bs = some .eq →
      compareSeq? cmp bs cs = some .eq → compareSeq? cmp as cs = some .eq
  | [], [], [], _, _ => rfl
  | a :: as, b :: bs, c :: cs, h, k => by
    obtain ⟨hfirst, hrest⟩ := compareSeq?_cons.mp h
    obtain ⟨kfirst, krest⟩ := compareSeq?_cons.mp k
    exact compareSeq?_cons.mpr ⟨hcmp.trans hfirst kfirst, compareSeq?_trans hcmp hrest krest⟩

/-- Sequences are equal when their elements are. -/
theorem EqualityLike.seq (hcmp : EqualityLike cmp) : EqualityLike (compareSeq? cmp) :=
  ⟨compareSeq?_symm hcmp, compareSeq?_trans hcmp⟩

theorem compareSeq?_self {as : List α} (h : ∀ a ∈ as, cmp a a = some .eq) :
    compareSeq? cmp as as = some .eq := by
  induction as with
  | nil => rfl
  | cons a as ih =>
    refine compareSeq?_cons.mpr ⟨h a List.mem_cons_self, ih fun b hb => ?_⟩
    exact h b (List.mem_cons_of_mem a hb)

end Orders

/-! ## Values -/

namespace Value

/-- Whether the value is a NaN or holds one. -/
def hasNaN : Value → Bool
  | float x => x.isNaN
  | floatSeq xs => xs.any Binary64.isNaN
  | _ => false

theorem equalityLike_compare? : EqualityLike compare? where
  symm {a b} h := by
    cases a <;> cases b <;> simp only [compare?, reduceCtorEq] at h
    case int.int => exact equalityLike_int.symm h
    case float.float => exact equalityLike_binary64.symm h
    case str.str => exact equalityLike_string.symm h
    case intSeq.intSeq => exact equalityLike_int.seq.symm h
    case floatSeq.floatSeq => exact equalityLike_binary64.seq.symm h
    case strSeq.strSeq => exact equalityLike_string.seq.symm h
  trans {a b c} h k := by
    cases a <;> cases b <;> simp only [compare?, reduceCtorEq] at h <;>
      cases c <;> simp only [compare?, reduceCtorEq] at k
    case int.int.int => exact equalityLike_int.trans h k
    case float.float.float => exact equalityLike_binary64.trans h k
    case str.str.str => exact equalityLike_string.trans h k
    case intSeq.intSeq.intSeq => exact equalityLike_int.seq.trans h k
    case floatSeq.floatSeq.floatSeq => exact equalityLike_binary64.seq.trans h k
    case strSeq.strSeq.strSeq => exact equalityLike_string.seq.trans h k

theorem equals_iff {a b : Value} : a.equals b ↔ a.compare? b = some .eq := by
  unfold equals
  simp

theorem equals_symm {a b : Value} (h : a.equals b) : b.equals a :=
  equals_iff.mpr (equalityLike_compare?.symm (equals_iff.mp h))

theorem equals_trans {a b c : Value} (h : a.equals b) (k : b.equals c) : a.equals c :=
  equals_iff.mpr (equalityLike_compare?.trans (equals_iff.mp h) (equals_iff.mp k))

/-- A value without a NaN equals itself. -/
theorem equals_self {a : Value} (h : a.hasNaN = false) : a.equals a := by
  rw [equals_iff]
  cases a with
  | int n => exact congrArg some (compareInt_eq.mpr rfl)
  | float x => exact Binary64.compare?_eq.mpr ⟨h, h, rfl⟩
  | str s => exact congrArg some Std.ReflOrd.compare_self
  | intSeq ns => exact compareSeq?_self fun n _ => congrArg some (compareInt_eq.mpr rfl)
  | floatSeq xs =>
    refine compareSeq?_self fun x hx => ?_
    have hnot : x.isNaN = false := by simpa using List.any_eq_false.mp h x hx
    exact Binary64.compare?_eq.mpr ⟨hnot, hnot, rfl⟩
  | strSeq ss => exact compareSeq?_self fun s _ => congrArg some Std.ReflOrd.compare_self

theorem isAmong_iff {v : Value} {vs : List Value} : v.isAmong vs ↔ ∃ w ∈ vs, w.equals v := by
  unfold isAmong
  exact List.any_eq_true

end Value

/-! ## Tracking -/

section Tracking

theorem mem_insertInOrder {v w : Value} {vs : List Value} :
    w ∈ insertInOrder v vs ↔ w = v ∨ w ∈ vs := by
  have hsplit : vs.reverse.takeWhile v.precedes ++ vs.reverse.dropWhile v.precedes =
      vs.reverse := List.takeWhile_append_dropWhile
  have hmem : w ∈ vs ↔
      w ∈ vs.reverse.takeWhile v.precedes ∨ w ∈ vs.reverse.dropWhile v.precedes := by
    rw [← List.mem_append, hsplit, List.mem_reverse]
  unfold insertInOrder
  rw [List.span_eq_takeWhile_dropWhile, hmem]
  simp only [List.mem_append, List.mem_reverse, List.mem_cons]
  grind

/-- What is tracked was tracked before or was just seen. -/
theorem mem_of_track? {vs vs' : List Value} {v w : Value} (h : track? vs v = some vs')
    (hw : w ∈ vs') : w = v ∨ w ∈ vs := by
  unfold track? at h
  split at h
  · cases h
    exact .inr hw
  · split at h
    · cases h
    · cases h
      exact mem_insertInOrder.mp hw

/-- No tracked value is given up. -/
theorem track?_subset {vs vs' : List Value} {v : Value} (h : track? vs v = some vs') :
    vs ⊆ vs' := by
  unfold track? at h
  split at h
  · cases h
    exact fun w hw => hw
  · split at h
    · cases h
    · cases h
      exact fun w hw => mem_insertInOrder.mpr (.inr hw)

/-- A value that was seen equals a tracked one or is tracked itself. -/
theorem isAmong_or_mem_of_track? {vs vs' : List Value} {v : Value} (h : track? vs v = some vs') :
    v.isAmong vs' ∨ v ∈ vs' := by
  unfold track? at h
  split at h
  · next hamong =>
    cases h
    exact .inl hamong
  · split at h
    · cases h
    · cases h
      exact .inr (mem_insertInOrder.mpr (.inl rfl))

/-- A value that was seen is among the tracked ones. -/
theorem isAmong_of_track? {vs vs' : List Value} {v : Value} (h : track? vs v = some vs')
    (hv : v.hasNaN = false) : v.isAmong vs' := by
  rcases isAmong_or_mem_of_track? h with hamong | hmem
  · exact hamong
  · exact Value.isAmong_iff.mpr ⟨v, hmem, Value.equals_self hv⟩

theorem isAmong_mono {v : Value} {vs vs' : List Value} (h : vs ⊆ vs') (hv : v.isAmong vs) :
    v.isAmong vs' := by
  obtain ⟨w, hw, heq⟩ := Value.isAmong_iff.mp hv
  exact Value.isAmong_iff.mpr ⟨w, h hw, heq⟩

end Tracking

end LikelyInvariants
