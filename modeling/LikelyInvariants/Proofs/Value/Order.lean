import LikelyInvariants.Proofs.Value
import LikelyInvariants.Variable
import Mathlib.Data.List.Perm.Subperm
import Mathlib.Data.List.TakeWhile

/-!
# Values of one type

Doubles apart, the values of one type are linearly ordered, and only a value itself equals it
(`VarType.exists_carrier`). A double is different: a NaN has no place in the order, and the two zeros
are equal but are not written alike.

So what is tracked of values of such a type does not depend on how they came. The tracked values
are the values that were seen, each once and in ascending order, and there is only one such list
(`Tracks.unique`). Values are refused only when too many were seen (`Tracks.exists_addAll`).
-/

namespace LikelyInvariants

/-! ## Linear orders -/

section Linear

variable {α : Type} {cmp : α → α → Option Ordering}

/-- A comparison that is decided everywhere, and by which only the same things are equal. -/
def IsLinear (cmp : α → α → Option Ordering) : Prop :=
  ∃ order : α → α → Ordering, Std.TransCmp order ∧ Std.LawfulEqCmp order ∧
    ∀ a b, cmp a b = some (order a b)

theorem isLinear_int : IsLinear fun a b => some (compareInt a b) := by
  have htrans : Std.TransCmp compareInt := inferInstanceAs (Std.TransCmp (compareOn Int64.toInt))
  exact ⟨compareInt, htrans, ⟨fun h => compareInt_eq.mp h⟩, fun _ _ => rfl⟩

theorem isLinear_string : IsLinear fun a b : String => some (compare a b) :=
  ⟨compare, inferInstance, inferInstance, fun _ _ => rfl⟩

/-- Sequences of linearly ordered things are linearly ordered. -/
theorem IsLinear.seq (h : IsLinear cmp) : IsLinear (compareSeq? cmp) := by
  obtain ⟨order, htrans, hlawful, hcmp⟩ := h
  refine ⟨List.compareLex order, inferInstance, inferInstance, fun as => ?_⟩
  induction as with
  | nil => rintro (_ | ⟨b, bs⟩) <;> rfl
  | cons a as ih =>
    rintro (_ | ⟨b, bs⟩)
    · rfl
    · rw [compareSeq?, hcmp, List.compareLex_cons_cons, ih]
      cases order a b <;> rfl

end Linear

/-! ## Types without doubles -/

/-- Whether values of the type are doubles or hold some. -/
def VarType.isFloating : VarType → Bool
  | float | floatSeq => true
  | _ => false

section OneType

variable {t : VarType} {u v w : Value}

/-- The values of a type without doubles are things of one linearly ordered kind. -/
theorem VarType.exists_carrier (ht : t.isFloating = false) :
    ∃ (α : Type) (order : α → α → Ordering) (wrap : α → Value), Std.TransCmp order ∧
      (∀ a b, order a b = .eq ↔ a = b) ∧ (∀ v, t.accepts v → ∃ a, wrap a = v) ∧
      (∀ a b, wrap a = wrap b → a = b) ∧ ∀ a b, (wrap a).compare? (wrap b) = some (order a b) := by
  suffices h : ∃ (α : Type) (cmp : α → α → Option Ordering) (wrap : α → Value), IsLinear cmp ∧
      (∀ v, t.accepts v → ∃ a, wrap a = v) ∧ (∀ a b, wrap a = wrap b → a = b) ∧
      ∀ a b, (wrap a).compare? (wrap b) = cmp a b by
    obtain ⟨α, cmp, wrap, ⟨order, htrans, hlawful, hcmp⟩, hwrap, hinj, hcompare⟩ := h
    exact ⟨α, order, wrap, htrans, fun a b => Std.LawfulEqCmp.compare_eq_iff_eq, hwrap, hinj,
      fun a b => (hcompare a b).trans (hcmp a b)⟩
  cases t with
  | int | hashcode =>
    refine ⟨Int64, _, .int, isLinear_int, fun v hv => ?_, fun _ _ => Value.int.inj, fun _ _ => rfl⟩
    cases v <;> first | exact ⟨_, rfl⟩ | cases hv
  | str =>
    refine ⟨_, _, .str, isLinear_string, fun v hv => ?_, fun _ _ => Value.str.inj, fun _ _ => rfl⟩
    cases v <;> first | exact ⟨_, rfl⟩ | cases hv
  | intSeq =>
    refine ⟨_, _, .intSeq, isLinear_int.seq, fun v hv => ?_, fun _ _ => Value.intSeq.inj,
      fun _ _ => rfl⟩
    cases v <;> first | exact ⟨_, rfl⟩ | cases hv
  | strSeq =>
    refine ⟨_, _, .strSeq, isLinear_string.seq, fun v hv => ?_, fun _ _ => Value.strSeq.inj,
      fun _ _ => rfl⟩
    cases v <;> first | exact ⟨_, rfl⟩ | cases hv
  | float | floatSeq => cases ht

namespace Value

theorem precedes_iff : v.precedes w ↔ v.compare? w = some .lt := by
  unfold precedes
  simp

/-- Only the value itself equals a value. -/
theorem equals_iff_eq (ht : t.isFloating = false) (hv : t.accepts v) (hw : t.accepts w) :
    v.equals w ↔ v = w := by
  obtain ⟨α, order, wrap, -, heq, hwrap, hinj, hcompare⟩ := VarType.exists_carrier ht
  obtain ⟨a, rfl⟩ := hwrap v hv
  obtain ⟨b, rfl⟩ := hwrap w hw
  rw [equals_iff, hcompare, Option.some.injEq, heq]
  exact ⟨congrArg wrap, hinj a b⟩

theorem precedes_trans (ht : t.isFloating = false) (hu : t.accepts u) (hv : t.accepts v)
    (hw : t.accepts w) (huv : u.precedes v) (hvw : v.precedes w) : u.precedes w := by
  obtain ⟨α, order, wrap, htrans, -, hwrap, -, hcompare⟩ := VarType.exists_carrier ht
  obtain ⟨a, rfl⟩ := hwrap u hu
  obtain ⟨b, rfl⟩ := hwrap v hv
  obtain ⟨c, rfl⟩ := hwrap w hw
  rw [precedes_iff, hcompare, Option.some.injEq] at *
  exact Std.TransCmp.lt_trans huv hvw

/-- Of two different values one precedes the other. -/
theorem precedes_total (ht : t.isFloating = false) (hv : t.accepts v) (hw : t.accepts w)
    (hne : v ≠ w) (hnot : ¬v.precedes w) : w.precedes v := by
  obtain ⟨α, order, wrap, htrans, heq, hwrap, -, hcompare⟩ := VarType.exists_carrier ht
  obtain ⟨a, rfl⟩ := hwrap v hv
  obtain ⟨b, rfl⟩ := hwrap w hw
  rw [precedes_iff, hcompare, Option.some.injEq] at *
  have hswap : order b a = (order a b).swap := Std.OrientedCmp.eq_swap
  rw [hswap]
  cases horder : order a b with
  | lt => exact absurd horder hnot
  | eq => exact absurd (congrArg wrap ((heq a b).mp horder)) hne
  | gt => rfl

theorem not_precedes_self (ht : t.isFloating = false) (hv : t.accepts v) : ¬v.precedes v := by
  have hself : v.compare? v = some .eq := equals_iff.mp ((equals_iff_eq ht hv hv).mpr rfl)
  rw [precedes_iff, hself]
  simp

theorem isAmong_iff_mem (ht : t.isFloating = false) {vs : List Value} (hv : t.accepts v)
    (hvs : ∀ w ∈ vs, t.accepts w) : v.isAmong vs ↔ v ∈ vs := by
  rw [isAmong_iff]
  constructor
  · rintro ⟨w, hw, heq⟩
    rwa [← (equals_iff_eq ht (hvs w hw) hv).mp heq]
  · exact fun hmem => ⟨v, hmem, (equals_iff_eq ht hv hv).mpr rfl⟩

end Value

end OneType

/-! ## What is tracked -/

section Tracking

variable {t : VarType} {seen : Value → Prop} {us vs ws : List Value} {v : Value}

/-- The tracked values are those that were seen, in ascending order. They are values of one type and
not too many. -/
structure Tracks (t : VarType) (seen : Value → Prop) (vs : List Value) : Prop where
  typed : ∀ v ∈ vs, t.accepts v
  mem_iff : ∀ v, v ∈ vs ↔ seen v
  ascending : vs.Pairwise fun v w => v.precedes w
  few : vs.length ≤ maxTracked

theorem tracks_nil (t : VarType) : Tracks t (fun _ => False) [] where
  typed := by simp
  mem_iff := by simp
  ascending := .nil
  few := Nat.zero_le _

/-- What was seen can be described in different ways. -/
theorem Tracks.congr {seen' : Value → Prop} (h : Tracks t seen vs) (hsame : ∀ v, seen v ↔ seen' v) :
    Tracks t seen' vs :=
  ⟨h.typed, fun v => (h.mem_iff v).trans (hsame v), h.ascending, h.few⟩

/-- A value is put before those that it precedes at the end of the list. -/
theorem exists_insertInOrder (v : Value) (vs : List Value) :
    ∃ before after, vs = before ++ after ∧ insertInOrder v vs = before ++ v :: after ∧
      (∀ w ∈ after, v.precedes w) ∧ ∀ w ∈ before.getLast?, ¬v.precedes w := by
  refine ⟨(vs.reverse.dropWhile v.precedes).reverse, (vs.reverse.takeWhile v.precedes).reverse,
    ?_, ?_, fun w hw => ?_, fun w hw => ?_⟩
  · rw [← List.reverse_append, List.takeWhile_append_dropWhile, List.reverse_reverse]
  · unfold insertInOrder
    rw [List.span_eq_takeWhile_dropWhile]
  · exact List.mem_takeWhile_imp (List.mem_reverse.mp hw)
  · have hhead := List.head?_dropWhile_not v.precedes vs.reverse
    rw [List.getLast?_reverse, Option.mem_def] at hw
    rw [hw] at hhead
    simpa using hhead

/-- A new value takes its place in the order. -/
theorem ascending_insertInOrder (ht : t.isFloating = false) (hv : t.accepts v)
    (hvs : ∀ w ∈ vs, t.accepts w) (hascending : vs.Pairwise fun v w => v.precedes w)
    (hnew : v ∉ vs) : (insertInOrder v vs).Pairwise fun v w => v.precedes w := by
  obtain ⟨before, after, rfl, hinsert, hafter, hlast⟩ := exists_insertInOrder v vs
  obtain ⟨hfirst, hsecond, hbetween⟩ := List.pairwise_append.mp hascending
  -- the last of those before precedes `v`, and they all precede the last one
  have hbefore : ∀ w ∈ before, w.precedes v := by
    rcases List.eq_nil_or_concat before with rfl | ⟨init, last, rfl⟩
    · simp
    · rw [List.concat_eq_append] at *
      have hmem : last ∈ init ++ [last] ++ after := by simp
      have hprecedes : last.precedes v :=
        Value.precedes_total ht hv (hvs last hmem) (fun heq => hnew (heq ▸ hmem))
          (hlast last (by simp))
      intro w hw
      rcases List.mem_append.mp hw with hw | hw
      · exact Value.precedes_trans ht (hvs w (by simp [hw])) (hvs last hmem) hv
          ((List.pairwise_append.mp hfirst).2.2 w hw last (List.mem_singleton_self last)) hprecedes
      · rwa [List.mem_singleton.mp hw]
  rw [hinsert]
  refine List.pairwise_append.mpr ⟨hfirst, List.pairwise_cons.mpr ⟨hafter, hsecond⟩, ?_⟩
  intro w hw x hx
  rcases List.mem_cons.mp hx with rfl | hx
  · exact hbefore w hw
  · exact hbetween w hw x hx

theorem length_insertInOrder (v : Value) (vs : List Value) :
    (insertInOrder v vs).length = vs.length + 1 := by
  obtain ⟨before, after, rfl, hinsert, -⟩ := exists_insertInOrder v vs
  rw [hinsert, List.length_append, List.length_append, List.length_cons]
  rfl

section NotFloating

variable (ht : t.isFloating = false)

include ht

theorem Tracks.nodup (h : Tracks t seen vs) : vs.Nodup := by
  refine h.ascending.imp_of_mem fun {v w} hv _ hlt heq => ?_
  subst heq
  exact Value.not_precedes_self ht (h.typed v hv) hlt

/-- There is only one list to track the same values. -/
theorem Tracks.unique (h : Tracks t seen vs) (k : Tracks t seen ws) : vs = ws := by
  have hperm : vs.Perm ws := (List.perm_ext_iff_of_nodup (h.nodup ht) (k.nodup ht)).mpr
    fun v => (h.mem_iff v).trans (k.mem_iff v).symm
  refine List.Perm.eq_of_pairwise (fun v w hv hw hvw hwv => ?_) h.ascending k.ascending hperm
  have htype := h.typed v hv
  exact absurd (Value.precedes_trans ht htype (k.typed w hw) htype hvw hwv)
    (Value.not_precedes_self ht htype)

/-- What is tracked after one more value. -/
theorem Tracks.add (h : Tracks t seen vs) (hv : t.accepts v) (htrack : track? vs v = some ws) :
    Tracks t (fun w => w = v ∨ seen w) ws := by
  unfold track? at htrack
  split at htrack
  · next hamong =>
    cases htrack
    have hseen := (h.mem_iff v).mp ((Value.isAmong_iff_mem ht hv h.typed).mp hamong)
    exact h.congr fun w => ⟨.inr, fun hw => hw.elim (fun heq => heq ▸ hseen) id⟩
  · next hnew =>
    rw [Value.isAmong_iff_mem ht hv h.typed] at hnew
    split at htrack
    · cases htrack
    · next hroom =>
      cases htrack
      refine ⟨fun w hw => ?_, fun w => ?_,
        ascending_insertInOrder ht hv h.typed h.ascending hnew, ?_⟩
      · rcases mem_insertInOrder.mp hw with rfl | hw
        · exact hv
        · exact h.typed w hw
      · rw [mem_insertInOrder, h.mem_iff]
      · have hfew := h.few
        rw [length_insertInOrder]
        omega

/-- A value is refused only if it is new and the list is full. -/
theorem Tracks.full (h : Tracks t seen vs) (hv : t.accepts v) (htrack : track? vs v = none) :
    v ∉ vs ∧ vs.length = maxTracked := by
  unfold track? at htrack
  split at htrack
  · cases htrack
  · next hnew =>
    rw [Value.isAmong_iff_mem ht hv h.typed] at hnew
    split at htrack
    · next hfull => exact ⟨hnew, hfull⟩
    · cases htrack

/-- What is tracked after some more values. -/
theorem Tracks.addAll (h : Tracks t seen vs) (hus : ∀ v ∈ us, t.accepts v)
    (hfold : us.foldlM track? vs = some ws) : Tracks t (fun w => w ∈ us ∨ seen w) ws := by
  induction us generalizing vs seen with
  | nil =>
    cases hfold
    simpa using h
  | cons u us ih =>
    obtain ⟨next, hnext, hrest⟩ := Option.bind_eq_some_iff.mp hfold
    have hnow := h.add ht (hus u List.mem_cons_self) hnext
    refine (ih hnow (fun v hv => hus v (List.mem_cons_of_mem u hv)) hrest).congr fun w => ?_
    rw [List.mem_cons, or_assoc]
    exact or_left_comm

/-- If there are few values in all, none is refused. -/
theorem Tracks.exists_addAll (h : Tracks t seen vs) (hus : ∀ v ∈ us, t.accepts v) (hvs : vs ⊆ ws)
    (hin : us ⊆ ws) (hfew : ws.length ≤ maxTracked) : ∃ last, us.foldlM track? vs = some last := by
  induction us generalizing vs seen with
  | nil => exact ⟨vs, rfl⟩
  | cons u us ih =>
    have hu := hus u List.mem_cons_self
    cases hnext : track? vs u with
    | none =>
      obtain ⟨hnew, hfull⟩ := h.full ht hu hnext
      have hnodup : (u :: vs).Nodup := List.nodup_cons.mpr ⟨hnew, h.nodup ht⟩
      have hsub : u :: vs ⊆ ws := List.cons_subset.mpr ⟨hin List.mem_cons_self, hvs⟩
      have hle := (List.subperm_of_subset hnodup hsub).length_le
      rw [List.length_cons] at hle
      omega
    | some next =>
      rw [List.foldlM_cons, hnext]
      have hnow := h.add ht hu hnext
      refine ih hnow (fun v hv => hus v (List.mem_cons_of_mem u hv)) (fun w hw => ?_)
        (fun w hw => hin (List.mem_cons_of_mem u hw))
      rcases (hnow.mem_iff w).mp hw with rfl | hw
      · exact hin List.mem_cons_self
      · exact hvs ((h.mem_iff w).mpr hw)

/-- The order in which values come does not matter. -/
theorem Tracks.foldlM_perm (h : Tracks t seen vs) (hperm : us.Perm ws)
    (hus : ∀ v ∈ us, t.accepts v) : us.foldlM track? vs = ws.foldlM track? vs := by
  -- where one order has a result, the other one has the same
  have hsame {us ws last : List Value} (hperm : us.Perm ws) (hus : ∀ v ∈ us, t.accepts v)
      (hlast : us.foldlM track? vs = some last) : ws.foldlM track? vs = some last := by
    have hws : ∀ v ∈ ws, t.accepts v := fun v hv => hus v (hperm.mem_iff.mpr hv)
    have hend := h.addAll ht hus hlast
    obtain ⟨last', hlast'⟩ := h.exists_addAll ht hws
      (fun w hw => (hend.mem_iff w).mpr (.inr ((h.mem_iff w).mp hw)))
      (fun w hw => (hend.mem_iff w).mpr (.inl (hperm.mem_iff.mpr hw))) hend.few
    have hend' := (h.addAll ht hws hlast').congr fun w => or_congr_left (hperm.mem_iff (a := w)).symm
    rw [hlast', hend.unique ht hend']
  cases hlast : us.foldlM track? vs with
  | some last => exact (hsame hperm hus hlast).symm
  | none =>
    cases hlast' : ws.foldlM track? vs with
    | none => rfl
    | some last =>
      have hws : ∀ v ∈ ws, t.accepts v := fun v hv => hus v (hperm.mem_iff.mpr hv)
      rw [hsame hperm.symm hws hlast'] at hlast
      cases hlast

end NotFloating

end Tracking

end LikelyInvariants
