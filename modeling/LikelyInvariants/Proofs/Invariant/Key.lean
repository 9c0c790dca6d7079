import LikelyInvariants.Proofs.Invariant.Permutation
import LikelyInvariants.Proofs.Point.Falsification
import LikelyInvariants.Proofs.Text.Delimited
import Mathlib.Data.List.Nodup

/-!
# What a formula key says

Two invariants over variables of the same types have equal formula keys exactly if they are of one
kind and state the same (`Invariant.key_eq_iff`). The key of an invariant that keeps values has them
in a single text. This text says which values they are, because the text of each of them shows where
it ends; and it says nothing more, because the values are sorted, so that they are the same list
whatever the order in which they were seen.
-/

namespace LikelyInvariants

/-! ## Texts of constants -/

section Constants

variable {t : VarType} {vs ws : List Value}

/-- A zero that stands for an object is `null`, and every other integer is a number. -/
theorem constantText_int (hashcode : Bool) (n : Int64) :
    (hashcode = true ∧ n = 0) ∧ constantText hashcode (.int n) = "null" ∨
      ¬(hashcode = true ∧ n = 0) ∧ constantText hashcode (.int n) = n.toInt.repr := by
  unfold constantText
  by_cases hzero : hashcode = true ∧ n = 0
  · exact .inl ⟨hzero, by simp [hzero]⟩
  · exact .inr ⟨hzero, if_neg (by simpa using hzero)⟩

theorem null_ne_repr (n : Int) : "null" ≠ n.repr := by
  intro h
  have hletter : 'n' ∈ n.repr.toList := by simp [← h]
  rcases of_mem_repr hletter with hdigit | hminus
  · exact absurd hdigit (by decide)
  · exact absurd hminus (by decide)

theorem isDelimited_constantText_int (hashcode : Bool) :
    IsDelimited (fun _ => True) fun n : Int64 => (constantText hashcode (.int n)).toList := by
  refine isDelimited_of_notMem (fun n _ => ?_) (fun n _ c hc => ?_) fun m n _ _ h => ?_
  · rcases constantText_int hashcode n with ⟨-, h⟩ | ⟨-, h⟩ <;> rw [h]
    · simp
    · exact repr_ne_nil _
  · rcases constantText_int hashcode n with ⟨-, h⟩ | ⟨-, h⟩ <;> rw [h] at hc
    · obtain rfl | rfl | rfl : c = 'n' ∨ c = 'u' ∨ c = 'l' := by simpa using hc
      all_goals decide
    · exact not_stop_of_mem_repr hc
  · rw [String.toList_inj] at h
    rcases constantText_int hashcode m with ⟨hm, hleft⟩ | ⟨hm, hleft⟩ <;>
      rcases constantText_int hashcode n with ⟨hn, hright⟩ | ⟨hn, hright⟩ <;>
      rw [hleft, hright] at h
    · rw [hm.2, hn.2]
    · exact absurd h (null_ne_repr _)
    · exact absurd h.symm (null_ne_repr _)
    · exact Int64.toInt_inj.mp (repr_int_injective h)

theorem toList_bracketed {α : Type} (write : α → String) (as : List α) :
    (Value.bracketed (as.map write)).toList =
      '[' :: (joined (fun a => (write a).toList) as ++ [']']) := by
  simp [Value.bracketed, joined, Function.comp_def]

/-- The text of a value of a type shows where it ends. -/
theorem isDelimited_constantText (ht : t.isFloating = false) :
    IsDelimited (fun v => t.accepts v) fun v => (constantText t.isHashcode v).toList := by
  cases t with
  | int | hashcode =>
    refine (isDelimited_constantText_int _).wrap .int (fun v hv => ?_) fun _ => rfl
    cases v <;> first | exact ⟨_, rfl⟩ | cases hv
  | str =>
    refine isDelimited_quote.wrap .str (fun v hv => ?_) fun _ => rfl
    cases v <;> first | exact ⟨_, rfl⟩ | cases hv
  | intSeq =>
    refine isDelimited_int.bracketed.wrap .intSeq (fun v hv => ?_) fun ns => ?_
    · cases v <;> first | exact ⟨_, rfl⟩ | cases hv
    · exact toList_bracketed (fun n : Int64 => n.toInt.repr) ns
  | strSeq =>
    refine isDelimited_quote.bracketed.wrap .strSeq (fun v hv => ?_) fun ss => ?_
    · cases v <;> first | exact ⟨_, rfl⟩ | cases hv
    · exact toList_bracketed Quoted.quote ss
  | float | floatSeq => cases ht

/-- The values can be told from the text of all of them. -/
theorem constantsText_injective (ht : t.isFloating = false) (hvs : ∀ v ∈ vs, t.accepts v)
    (hws : ∀ w ∈ ws, t.accepts w)
    (h : constantsText t.isHashcode vs = constantsText t.isHashcode ws) : vs = ws := by
  have htext (us : List Value) : (constantsText t.isHashcode us).toList =
      joined (fun v => (constantText t.isHashcode v).toList) us := by
    simp [constantsText, joined, Function.comp_def]
  have hlists := congrArg String.toList h
  rw [htext, htext, ← List.append_nil (joined _ vs), ← List.append_nil (joined _ ws)] at hlists
  exact ((isDelimited_constantText ht).joined_append_inj (by simp) (by simp) hvs hws hlists).1

/-- What is tracked is told by its text. -/
theorem Tracks.constantsText_eq_iff {seen seen' : Value → Prop} (h : Tracks t seen vs)
    (h' : Tracks t seen' ws) (ht : t.isFloating = false) :
    constantsText t.isHashcode vs = constantsText t.isHashcode ws ↔ ∀ v, seen v ↔ seen' v := by
  constructor
  · intro heq v
    rw [← h.mem_iff, ← h'.mem_iff, constantsText_injective ht h.typed h'.typed heq]
  · intro hsame
    rw [(h.congr hsame).unique ht h']

end Constants

/-! ## Kinds -/

section Kinds

theorem Kind.mem_all (k : Kind) : k ∈ Kind.all := by
  cases k with
  | bound side => cases side <;> decide
  | comparison op => cases op <;> decide
  | combination op => cases op <;> decide
  | _ => decide

/-- No two kinds have one name. -/
theorem Kind.name_injective {k k' : Kind} (h : k.name = k'.name) : k = k' := by
  have hnodup : (Kind.all.map Kind.name).Nodup := by decide
  exact List.inj_on_of_nodup_map hnodup k.mem_all k'.mem_all h

end Kinds

/-! ## Kind by kind -/

section Details

theorem Bound.detail_eq_iff {s s' : Bound} : s.detail = s'.detail ↔ s.extremum = s'.extremum := by
  have hne (n : Int) : n.repr ≠ "" := fun h => repr_ne_nil n (congrArg String.toList h)
  unfold detail
  constructor
  · intro h
    cases hc : s.extremum with
    | none =>
      cases hc' : s'.extremum with
      | none => rfl
      | some c' => exact absurd (by simpa [hc, hc'] using h.symm) (hne c'.toInt)
    | some c =>
      cases hc' : s'.extremum with
      | none => exact absurd (by simpa [hc, hc'] using h) (hne c.toInt)
      | some c' =>
        rw [hc, hc'] at h
        rw [Int64.toInt_inj.mp (repr_int_injective h)]
  · intro h
    rw [h]

/-- The text of the coefficients of a line, or of none. -/
theorem Linear.detail_eq (s : Linear) : s.detail.toList =
    s.fit.coefficients?.elim [] fun x => x.1.toInt.repr.toList ++ ',' :: x.2.toInt.repr.toList := by
  unfold detail LineFit.coefficients?
  split
  · next a b _ =>
    show (a.toInt.repr ++ "," ++ b.toInt.repr).toList = _
    simp
  · rfl

theorem Linear.detail_eq_iff {s s' : Linear} :
    s.detail = s'.detail ↔ s.fit.coefficients? = s'.fit.coefficients? := by
  rw [← String.toList_inj, detail_eq, detail_eq]
  generalize s.fit.coefficients? = o, s'.fit.coefficients? = o'
  refine ⟨fun h => ?_, fun h => by rw [h]⟩
  cases o <;> cases o' <;> simp only [Option.elim_none, Option.elim_some] at h
  · rfl
  · exact absurd h.symm (by simp)
  · exact absurd h (by simp)
  · have hfree {n : Int} (c : Char) (hc : c ∈ n.repr.toList) : ¬c = ',' :=
      fun heq => not_stop_of_mem_repr hc (.inl heq)
    obtain ⟨hslope, hrest⟩ := append_inj_of_stop hfree hfree (by simp) (by simp) h
    have hintercept := repr_int_injective (String.toList_inj.mp (List.cons.inj hrest).2)
    have hslope := repr_int_injective (String.toList_inj.mp hslope)
    rw [Int64.toInt_inj] at hslope hintercept
    exact congrArg some (Prod.ext hslope hintercept)

theorem Combination.detail_eq_iff {s s' : Combination} :
    s.detail = s'.detail ↔ s.result = s'.result := by
  have hinj : ∀ q r : Fin 3, s!"result={q.val}" = s!"result={r.val}" → q = r := by decide
  exact ⟨hinj _ _, fun h => by rw [detail, detail, h]⟩

end Details

/-! ## Keys -/

section Keys

variable {types : List VarType} {k : Kind} {vars : List Variable} {inv i j : Invariant}
  {ts us : List (Tuple × Nat)}

/-- Whether an invariant of the kind has seen a value in some tuples. -/
def Kind.Observes (k : Kind) (ts : List (Tuple × Nat)) (v : Value) : Prop :=
  ∃ x ∈ ts, v ∈ k.seen x.1.values

/-- What is left of a candidate over variables of some types after tuples of these types. -/
def Invariant.Survives (types : List VarType) (ts : List (Tuple × Nat)) (i : Invariant) : Prop :=
  (∀ x ∈ ts, x.1.HasTypes types) ∧ ∃ (k : Kind) (vars : List Variable) (inv : Invariant),
    vars.map (·.type) = types ∧ inv ∈ k.candidates vars ∧ inv.addAll? ts = some i

/-- Whether two invariants of one kind state the same, after they were fed with some tuples: those
that keep values have seen the same values, bounds have the same extremum or none, lines have the
same coefficients or none, and functions have their result in the same place. -/
def Invariant.StatesSame (ts us : List (Tuple × Nat)) : Invariant → Invariant → Prop
  | oneOf _, oneOf _ => ∀ v, Kind.oneOf.Observes ts v ↔ Kind.oneOf.Observes us v
  | elementOneOf _, elementOneOf _ =>
    ∀ v, Kind.elementOneOf.Observes ts v ↔ Kind.elementOneOf.Observes us v
  | bound s, bound s' => s.extremum = s'.extremum
  | linear s, linear s' => s.fit.coefficients? = s'.fit.coefficients?
  | combination s, combination s' => s.result = s'.result
  | _, _ => True

theorem Invariant.form_addAll? (h : inv.addAll? ts = some i) : i.form = inv.form := by
  induction ts generalizing inv with
  | nil =>
    cases h
    rfl
  | cons t ts ih =>
    rw [addAll?_cons] at h
    obtain ⟨next, hnext, hrest⟩ := Option.bind_eq_some_iff.mp h
    exact (ih hrest).trans (form_add? hnext)

/-- The values that an invariant keeps are of one type, and are written as values of this type. -/
theorem Invariant.exists_type_of_tracks (h : i.form ∈ k.candidates vars) (htracks : i.kind.tracks) :
    ∃ u, i.kind.trackedType? (vars.map (·.type)) = some u ∧
      i.detail = constantsText u.isHashcode i.tracked := by
  obtain ⟨-, rfl, hlength⟩ := Kind.of_mem_candidates h
  cases i
  case oneOf s =>
    obtain ⟨x, rfl⟩ := List.length_eq_one_iff.mp hlength
    obtain ⟨htype⟩ : s.type = x.type ∧ True := by simpa [form, kind, Kind.candidates] using h
    exact ⟨x.type, rfl, by rw [← htype]; rfl⟩
  case elementOneOf s =>
    obtain ⟨x, rfl⟩ := List.length_eq_one_iff.mp hlength
    have harray : x.type.isArray := by
      by_contra hscalar
      simp [form, kind, Kind.candidates, hscalar] at h
    obtain ⟨u, hu⟩ := Option.isSome_iff_exists.mp harray
    refine ⟨u, hu, ?_⟩
    have hhashcode : u.isHashcode = false := by
      cases hx : x.type <;> rw [hx] at hu <;> cases hu <;> rfl
    rw [hhashcode]
    rfl
  all_goals cases htracks

/-- A survivor that keeps values keeps those that it has seen. -/
theorem Invariant.Survives.exists_tracks (h : i.Survives types ts)
    (htypes : ∀ t ∈ types, t.isFloating = false) (htracks : i.kind.tracks) :
    ∃ u, i.kind.trackedType? types = some u ∧ i.detail = constantsText u.isHashcode i.tracked ∧
      Tracks u (i.kind.Observes ts) i.tracked := by
  obtain ⟨hts, k, vars, inv, rfl, hinv, hrun⟩ := h
  have hfresh := Kind.isFresh_of_mem_candidates hinv
  have hform : i.form = inv := (form_addAll? hrun).trans hfresh.form_eq
  have hkind : inv.kind = i.kind := by
    rw [← hform]
    cases i <;> rfl
  obtain ⟨u, hu, hdetail⟩ := exists_type_of_tracks (hform ▸ hinv) htracks
  refine ⟨u, hu, hdetail, ((hfresh.keeps _).addAll? htypes hts hrun u hu).congr fun v => ?_⟩
  rw [hkind, or_false]
  rfl

theorem Invariant.detail_eq_iff_of_tracks (hi : i.Survives types ts) (hj : j.Survives types us)
    (htypes : ∀ t ∈ types, t.isFloating = false) (hkind : i.kind = j.kind)
    (htracks : i.kind.tracks) :
    i.detail = j.detail ↔ ∀ v, i.kind.Observes ts v ↔ i.kind.Observes us v := by
  obtain ⟨u, hu, hdetail, hseen⟩ := hi.exists_tracks htypes htracks
  obtain ⟨u', hu', hdetail', hseen'⟩ := hj.exists_tracks htypes (hkind ▸ htracks)
  rw [← hkind] at hu' hseen'
  obtain rfl : u = u' := Option.some.inj (hu.symm.trans hu')
  rw [hdetail, hdetail']
  exact hseen.constantsText_eq_iff hseen' (Kind.isFloating_trackedType? htypes hu)

/-- The constants of two invariants of one kind have the same text if they state the same. -/
theorem Invariant.detail_eq_iff (hi : i.Survives types ts) (hj : j.Survives types us)
    (htypes : ∀ t ∈ types, t.isFloating = false) (hkind : i.kind = j.kind) :
    i.detail = j.detail ↔ i.StatesSame ts us j := by
  have htracked := detail_eq_iff_of_tracks hi hj htypes hkind
  cases i <;> cases j <;> simp only [kind, reduceCtorEq, Kind.bound.injEq, Kind.comparison.injEq,
    Kind.combination.injEq] at hkind
  case oneOf.oneOf => exact htracked rfl
  case elementOneOf.elementOneOf => exact htracked rfl
  case bound.bound => exact Bound.detail_eq_iff
  case linear.linear => exact Linear.detail_eq_iff
  case combination.combination => exact Combination.detail_eq_iff
  all_goals exact ⟨fun _ => trivial, fun _ => rfl⟩

/-- **Formula keys are faithful.** Let two candidates over variables of the same types, none of which
has doubles, be fed with any tuples of these types, and let both survive. Their formula keys are
equal, as keys and as pairs of texts, exactly if they are of one kind and state the same. -/
theorem Invariant.key_eq_iff (htypes : ∀ t ∈ types, t.isFloating = false)
    (hi : i.Survives types ts) (hj : j.Survives types us) :
    (i.key = j.key ↔ i.kind = j.kind ∧ i.StatesSame ts us j) ∧
      (i.key.kind.name = j.key.kind.name ∧ i.key.detail = j.key.detail ↔
        i.kind = j.kind ∧ i.StatesSame ts us j) := by
  have hdetail := and_congr_right (a := i.kind = j.kind) (detail_eq_iff hi hj htypes)
  constructor
  · rw [← hdetail, key, key, FormulaKey.mk.injEq]
  · rw [← hdetail]
    exact and_congr_left fun _ => ⟨Kind.name_injective, congrArg Kind.name⟩

/-- Two objects, one of them `null`, that are seen in different orders and not equally often. -/
theorem Invariant.key_eq_iff_reordered :
    let null : Tuple := ⟨[.int 0], .modified⟩
    let object : Tuple := ⟨[.int 5], .modified⟩
    let first : Invariant := oneOf { type := .hashcode, values := [.int 0, .int 5], samples := 2 }
    let second : Invariant := oneOf { type := .hashcode, values := [.int 0, .int 5], samples := 7 }
    (oneOf { type := .hashcode }).addAll? [(null, 1), (object, 1)] = some first ∧
      (oneOf { type := .hashcode }).addAll? [(object, 2), (object, 1), (null, 4)] = some second ∧
      first.key = second.key := by
  intro null object first second
  have hnull : null.HasTypes [.hashcode] := .cons rfl .nil
  have hobject : object.HasTypes [.hashcode] := .cons rfl .nil
  let x : Variable := { name := "x", type := .hashcode, index := 0, slot := some 0 }
  have hfirst : first.Survives [.hashcode] [(null, 1), (object, 1)] :=
    ⟨by simp [hnull, hobject], .oneOf, [x], _, rfl, List.mem_singleton_self _, rfl⟩
  have hsecond : second.Survives [.hashcode] [(object, 2), (object, 1), (null, 4)] :=
    ⟨by simp [hnull, hobject], .oneOf, [x], _, rfl, List.mem_singleton_self _, rfl⟩
  refine ⟨rfl, rfl, (key_eq_iff (by decide) hfirst hsecond).1.mpr ⟨rfl, fun v => ?_⟩⟩
  simp +contextual [Kind.Observes, Kind.seen, null, object, or_comm]

end Keys

end LikelyInvariants
