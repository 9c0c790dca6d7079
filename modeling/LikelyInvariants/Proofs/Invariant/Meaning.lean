import LikelyInvariants.Proofs.Invariant.Line
import LikelyInvariants.Proofs.Value

/-!
# What invariants mean

The formula of an invariant as a property of the values of a tuple, with the arithmetic done on
unbounded integers (`Invariant.Holds`). It relates to feeding in three ways, and runs of tuples
need nothing more:

* a tuple that an invariant survives satisfies the formula that is left (`Invariant.holds_add?`),
* what satisfied the formula before still satisfies it (`Invariant.Holds.add?`),
* the constants of the formula come from the tuple or were there before
  (`Invariant.mem_tracked_add?`).

Only the first needs a tuple without a NaN, and only where values are tracked.
-/

namespace LikelyInvariants

/-! ## Formulas -/

section Formulas

/-- Whether two integers compare as the operator says. -/
def Comparison.Holds : Comparison → Int → Int → Prop
  | eq, a, b => a = b
  | ne, a, b => a ≠ b
  | lt, a, b => a < b
  | le, a, b => a ≤ b
  | gt, a, b => a > b
  | ge, a, b => a ≥ b

/-- Whether a value is on the right side of a bound. -/
def Side.Holds : Side → Int → Int → Prop
  | lower, c, v => c ≤ v
  | upper, c, v => v ≤ c

/-- Whether a point is where the points so far lie. -/
def LineFit.Holds : LineFit → Int → Int → Prop
  | unknown, _, _ => False
  | through x₁ y₁, x, y => x = x₁.toInt ∧ y = y₁.toInt
  | line a b, x, y => y = a.toInt * x + b.toInt

/-- The function on all integers. -/
def Operation.apply : Operation → Int → Int → Int
  | sum, a, b => a + b
  | product, a, b => a * b
  | min, a, b => Min.min a b
  | max, a, b => Max.max a b

/-- Whether the values of a tuple satisfy the formula of an invariant. -/
def Invariant.Holds : Invariant → List Value → Prop
  | oneOf s, vs => ∃ v rest, vs = v :: rest ∧ v.isAmong s.values
  | bound s, vs => ∃ v rest c, vs = .int v :: rest ∧ s.extremum = some c ∧
      s.side.Holds c.toInt v.toInt
  | nonZero _, vs => ∃ v rest, vs = .int v :: rest ∧ v.toInt ≠ 0
  | elementOneOf s, vs => ∃ v rest elements, vs = v :: rest ∧ v.elements? = some elements ∧
      ∀ e ∈ elements, e.isAmong s.values
  | nonEmpty _, vs => ∃ v rest elements, vs = v :: rest ∧ v.elements? = some elements ∧
      elements ≠ []
  | compared s, vs => ∃ a b rest, vs = .int a :: .int b :: rest ∧ s.op.Holds a.toInt b.toInt
  | linear s, vs => ∃ x y rest, vs = .int x :: .int y :: rest ∧ s.fit.Holds x.toInt y.toInt
  | combination s, vs => ∃ x y z rest, vs = .int x :: .int y :: .int z :: rest ∧
      (pickResult s.result x y z).1.toInt =
        s.op.apply (pickResult s.result x y z).2.1.toInt (pickResult s.result x y z).2.2.toInt

/-- The constants that an invariant has picked up from tuples. -/
def Invariant.tracked : Invariant → List Value
  | oneOf s => s.values
  | elementOneOf s => s.values
  | bound s => s.extremum.toList.map .int
  | _ => []

/-- Whether invariants of a kind keep the values that they see. -/
def Kind.tracks : Kind → Bool
  | oneOf | elementOneOf => true
  | _ => false

/-- The values that an invariant of a kind sees in a tuple: the elements of a sequence, or the
first value. -/
def Kind.seen : Kind → List Value → List Value
  | elementOneOf, v :: _ => v.elements?.getD []
  | _, v :: _ => [v]
  | _, [] => []

theorem Invariant.IsFresh.tracked {inv : Invariant} (h : inv.IsFresh) : inv.tracked = [] := by
  cases h <;> rfl

end Formulas

/-! ## Integers of 64 bits -/

section Integers

theorem Comparison.holds_iff {op : Comparison} {a b : Int64} :
    op.eval a b ↔ op.Holds a.toInt b.toInt := by
  unfold eval compareInt
  rcases Int.lt_trichotomy a.toInt b.toInt with hlt | heq | hgt
  · have hcompare : compare a.toInt b.toInt = .lt := Int.compare_eq_lt.mpr hlt
    rw [hcompare]
    cases op <;> simp [allows, Holds] <;> omega
  · have hcompare : compare a.toInt b.toInt = .eq := Int.compare_eq_eq.mpr heq
    rw [hcompare]
    cases op <;> simp [allows, Holds] <;> omega
  · have hcompare : compare a.toInt b.toInt = .gt := Int.compare_eq_gt.mpr hgt
    rw [hcompare]
    cases op <;> simp [allows, Holds] <;> omega

/-- The exact order decides whether a value is beyond a bound. -/
theorem Side.holds_of_not_beyond {side : Side} {v c : Int64} (h : side.beyond v c = false) :
    side.Holds c.toInt v.toInt := by
  cases side <;> simpa [beyond, Holds] using h

theorem Side.Holds.trans {side : Side} {a b c : Int} (h : side.Holds a b) (k : side.Holds b c) :
    side.Holds a c := by
  cases side <;> simp only [Holds] at * <;> omega

theorem Side.holds_of_beyond {side : Side} {v c : Int64} (h : side.beyond v c) :
    side.Holds v.toInt c.toInt := by
  cases side <;> simp only [beyond, decide_eq_true_eq] at h <;> simp only [Holds] <;> omega

theorem Operation.apply_of_eval? {op : Operation} {a b r : Int64} (h : op.eval? a b = some r) :
    r.toInt = op.apply a.toInt b.toInt := by
  cases op with
  | sum => exact toInt_of_ofInt? h
  | product => exact toInt_of_ofInt? h
  | min =>
    simp only [eval?, Option.some.injEq] at h
    subst h
    simp only [apply]
    split <;> omega
  | max =>
    simp only [eval?, Option.some.injEq] at h
    subst h
    simp only [apply]
    split <;> omega

end Integers

/-! ## The tuple that was fed -/

section Fed

theorem Value.hasNaN_of_mem_elements {v w : Value} {elements : List Value}
    (h : v.elements? = some elements) (hv : v.hasNaN = false) (hw : w ∈ elements) :
    w.hasNaN = false := by
  cases v <;> simp only [elements?, Option.some.injEq, reduceCtorEq] at h <;> subst h
  case intSeq ns =>
    obtain ⟨n, -, rfl⟩ := List.mem_map.mp hw
    rfl
  case floatSeq xs =>
    obtain ⟨x, hx, rfl⟩ := List.mem_map.mp hw
    simpa [hasNaN] using List.any_eq_false.mp hv x hx
  case strSeq ss =>
    obtain ⟨s, -, rfl⟩ := List.mem_map.mp hw
    rfl

/-- Tracking several values one after the other. -/
theorem foldlM_track? {elements vs vs' : List Value} (h : elements.foldlM track? vs = some vs') :
    vs ⊆ vs' ∧ (∀ w ∈ vs', w ∈ elements ∨ w ∈ vs) ∧
      ∀ v ∈ elements, v.hasNaN = false → v.isAmong vs' := by
  induction elements generalizing vs with
  | nil =>
    cases h
    exact ⟨fun w hw => hw, fun w hw => .inr hw, by simp⟩
  | cons e elements ih =>
    obtain ⟨next, hnext, hrest⟩ := Option.bind_eq_some_iff.mp h
    obtain ⟨hsubset, hmem, hamong⟩ := ih hrest
    refine ⟨fun w hw => hsubset (track?_subset hnext hw), fun w hw => ?_, fun v hv hnan => ?_⟩
    · rcases hmem w hw with hw | hw
      · exact .inl (List.mem_cons_of_mem e hw)
      · rcases mem_of_track? hnext hw with rfl | hw
        · exact .inl List.mem_cons_self
        · exact .inr hw
    · rcases List.mem_cons.mp hv with rfl | hv
      · exact isAmong_mono hsubset (isAmong_of_track? hnext hnan)
      · exact hamong v hv hnan

theorem LineFit.holds_add? {fit fit' : LineFit} {x y : Int64} (h : fit.add? x y = some fit') :
    fit'.Holds x.toInt y.toInt ∧
      ∀ a b : Int64, fit.Holds a.toInt b.toInt → fit'.Holds a.toInt b.toInt := by
  rcases add?_cases h with
    ⟨hfit, rfl⟩ | ⟨x₁, y₁, a, b, rfl, -, rfl, hjoins⟩ | ⟨a, b, rfl, rfl, -, hy⟩
  · refine ⟨⟨rfl, rfl⟩, fun _ _ hon => ?_⟩
    rcases hfit with rfl | rfl
    · exact hon.elim
    · exact hon
  · refine ⟨hjoins.second, fun _ _ hon => ?_⟩
    rw [hon.1, hon.2]
    exact hjoins.first
  · exact ⟨hy, fun _ _ hon => hon⟩

/-- A tuple that an invariant survives satisfies the formula that is left, unless a NaN is
tracked. -/
theorem Invariant.holds_add? {t : Tuple} {n : Nat} {inv inv' : Invariant}
    (h : inv.add? t n = some inv')
    (hnan : ∀ v ∈ t.values.head?, inv.kind.tracks → v.hasNaN = false) :
    inv'.Holds t.values := by
  cases inv <;> obtain ⟨s', hs, rfl⟩ := Option.map_eq_some_iff.mp h
  case oneOf =>
    obtain ⟨v, rest, values, hv, htrack, rfl⟩ := OneOf.add?_eq_some hs
    exact ⟨v, rest, hv, isAmong_of_track? htrack (hnan v (by simp [hv]) rfl)⟩
  case bound =>
    obtain ⟨v, rest, hv, hside, -, ⟨hextremum, -⟩ | ⟨c, -, hextremum, hinside⟩⟩ :=
      Bound.add?_eq_some hs
    · refine ⟨v, rest, v, hv, hextremum, ?_⟩
      cases s'.side <;> exact Int.le_refl _
    · refine ⟨v, rest, c, hv, hextremum, ?_⟩
      rw [hside]
      exact Side.holds_of_not_beyond hinside
  case nonZero =>
    obtain ⟨v, rest, hv, hne, rfl⟩ := NonZero.add?_eq_some hs
    exact ⟨v, rest, hv, hne⟩
  case elementOneOf =>
    obtain ⟨v, rest, elements, values, hv, helements, htrack, rfl⟩ := ElementOneOf.add?_eq_some hs
    refine ⟨v, rest, elements, hv, helements, fun e he => ?_⟩
    have hve := Value.hasNaN_of_mem_elements helements (hnan v (by simp [hv]) rfl) he
    exact (foldlM_track? htrack).2.2 e he hve
  case nonEmpty =>
    obtain ⟨v, rest, k, hv, hlength, rfl⟩ := NonEmpty.add?_eq_some hs
    obtain ⟨elements, helements, hk⟩ := Option.map_eq_some_iff.mp hlength
    refine ⟨v, rest, elements, hv, helements, ?_⟩
    rintro rfl
    cases hk
  case compared =>
    obtain ⟨a, b, rest, hv, heval, rfl⟩ := Compared.add?_eq_some hs
    exact ⟨a, b, rest, hv, Comparison.holds_iff.mp heval⟩
  case linear =>
    obtain ⟨x, y, rest, fit, hv, hfit, rfl⟩ := Linear.add?_eq_some hs
    exact ⟨x, y, rest, hv, (LineFit.holds_add? hfit).1⟩
  case combination =>
    obtain ⟨x, y, z, rest, hv, heval, rfl⟩ := Combination.add?_eq_some hs
    exact ⟨x, y, z, rest, hv, Operation.apply_of_eval? heval⟩

/-- What satisfied the formula before a tuple satisfies it after the tuple. -/
theorem Invariant.Holds.add? {t : Tuple} {n : Nat} {inv inv' : Invariant} {vs : List Value}
    (hholds : inv.Holds vs) (h : inv.add? t n = some inv') : inv'.Holds vs := by
  cases inv <;> obtain ⟨s', hs, rfl⟩ := Option.map_eq_some_iff.mp h
  case oneOf =>
    obtain ⟨_, _, values, _, htrack, rfl⟩ := OneOf.add?_eq_some hs
    obtain ⟨v, rest, hv, hamong⟩ := hholds
    exact ⟨v, rest, hv, isAmong_mono (track?_subset htrack) hamong⟩
  case bound =>
    obtain ⟨v, rest, c, hv, hextremum, hinside⟩ := hholds
    obtain ⟨w, -, -, hside, -, ⟨hmoved, hbeyond⟩ | ⟨c', hc', hstays, -⟩⟩ := Bound.add?_eq_some hs
    · refine ⟨v, rest, w, hv, hmoved, ?_⟩
      rw [hside]
      exact (Side.holds_of_beyond (hbeyond c hextremum)).trans hinside
    · rw [hextremum] at hc'
      cases hc'
      exact ⟨v, rest, c, hv, hstays, by rw [hside]; exact hinside⟩
  case nonZero =>
    obtain ⟨-, -, -, -, rfl⟩ := NonZero.add?_eq_some hs
    exact hholds
  case elementOneOf =>
    obtain ⟨_, _, _, values, _, _, htrack, rfl⟩ := ElementOneOf.add?_eq_some hs
    obtain ⟨v, rest, elements, hv, helements, hamong⟩ := hholds
    refine ⟨v, rest, elements, hv, helements, fun e he => ?_⟩
    exact isAmong_mono (foldlM_track? htrack).1 (hamong e he)
  case nonEmpty =>
    obtain ⟨-, -, -, -, -, rfl⟩ := NonEmpty.add?_eq_some hs
    exact hholds
  case compared =>
    obtain ⟨-, -, -, -, -, rfl⟩ := Compared.add?_eq_some hs
    exact hholds
  case linear =>
    obtain ⟨_, _, _, fit, _, hfit, rfl⟩ := Linear.add?_eq_some hs
    obtain ⟨x, y, rest, hv, hon⟩ := hholds
    exact ⟨x, y, rest, hv, (LineFit.holds_add? hfit).2 x y hon⟩
  case combination =>
    obtain ⟨-, -, -, -, -, -, rfl⟩ := Combination.add?_eq_some hs
    exact hholds

/-- A constant of the formula was seen in the tuple or was there before. -/
theorem Invariant.mem_tracked_add? {t : Tuple} {n : Nat} {inv inv' : Invariant} {w : Value}
    (h : inv.add? t n = some inv') (hw : w ∈ inv'.tracked) :
    w ∈ inv.kind.seen t.values ∨ w ∈ inv.tracked := by
  cases inv <;> obtain ⟨s', hs, rfl⟩ := Option.map_eq_some_iff.mp h
  case oneOf =>
    obtain ⟨v, rest, values, hv, htrack, rfl⟩ := OneOf.add?_eq_some hs
    rcases mem_of_track? htrack hw with rfl | hw
    · exact .inl (by simp [kind, Kind.seen, hv])
    · exact .inr hw
  case bound =>
    obtain ⟨v, rest, hv, -, -, ⟨hmoved, -⟩ | ⟨c, hc, hstays, -⟩⟩ := Bound.add?_eq_some hs
    · left
      simpa [tracked, hmoved, kind, Kind.seen, hv] using hw
    · right
      simpa [tracked, hstays, hc] using hw
  case elementOneOf =>
    obtain ⟨v, rest, elements, values, hv, helements, htrack, rfl⟩ := ElementOneOf.add?_eq_some hs
    rcases (foldlM_track? htrack).2.1 w hw with hw | hw
    · exact .inl (by simpa [kind, Kind.seen, hv, helements] using hw)
    · exact .inr hw
  all_goals simp [tracked] at hw

theorem Invariant.kind_add? {t : Tuple} {n : Nat} {inv inv' : Invariant}
    (h : inv.add? t n = some inv') : inv'.kind = inv.kind := by
  cases inv <;> obtain ⟨s', hs, rfl⟩ := Option.map_eq_some_iff.mp h
  case bound =>
    obtain ⟨-, -, -, hside, -⟩ := Bound.add?_eq_some hs
    exact congrArg Kind.bound hside
  case compared =>
    obtain ⟨-, -, -, -, -, rfl⟩ := Compared.add?_eq_some hs
    rfl
  case combination =>
    obtain ⟨-, -, -, -, -, -, rfl⟩ := Combination.add?_eq_some hs
    rfl
  all_goals rfl

end Fed

/-! ## Runs of tuples -/

section Runs

/-- What each step makes true of its own tuple and keeps true of all others is true of a survivor and
every tuple it was fed, first or last. -/
theorem Invariant.addAll?_induction {P : Invariant → List Value → Prop} {Q : Tuple → Prop}
    (hfed : ∀ {inv inv' : Invariant} {t n}, inv.add? t n = some inv' → Q t → P inv' t.values)
    (hkept : ∀ {inv inv' : Invariant} {t n vs}, inv.add? t n = some inv' → P inv vs → P inv' vs)
    {ts : List (Tuple × Nat)} {inv inv' : Invariant} (h : inv.addAll? ts = some inv') :
    (∀ x ∈ ts, Q x.1 → P inv' x.1.values) ∧ ∀ vs, P inv vs → P inv' vs := by
  induction ts generalizing inv with
  | nil =>
    cases h
    exact ⟨by simp, fun vs hvs => hvs⟩
  | cons t ts ih =>
    rw [addAll?_cons] at h
    obtain ⟨next, hnext, hrest⟩ := Option.bind_eq_some_iff.mp h
    obtain ⟨hlater, hkept'⟩ := ih hrest
    refine ⟨fun x hx hQ => ?_, fun vs hvs => hkept' vs (hkept hnext hvs)⟩
    rcases List.mem_cons.mp hx with rfl | hx
    · exact hkept' _ (hfed hnext hQ)
    · exact hlater x hx hQ

/-- A survivor's formula is true of every tuple without a NaN it was fed. -/
theorem Invariant.holds_addAll? {ts : List (Tuple × Nat)} {inv inv' : Invariant}
    (h : inv.addAll? ts = some inv') :
    (∀ x ∈ ts, (∀ v ∈ x.1.values, v.hasNaN = false) → inv'.Holds x.1.values) ∧
      ∀ vs, inv.Holds vs → inv'.Holds vs :=
  addAll?_induction (P := Holds) (Q := fun t => ∀ v ∈ t.values, v.hasNaN = false)
    (fun hadd hnan => holds_add? hadd fun v hv _ => hnan v (List.mem_of_mem_head? hv))
    (fun hadd hvs => hvs.add? hadd) h

/-- The constants of a survivor's formula were there before or were seen in some tuple. -/
theorem Invariant.mem_tracked_addAll? {ts : List (Tuple × Nat)} {inv inv' : Invariant} {w : Value}
    (h : inv.addAll? ts = some inv') (hw : w ∈ inv'.tracked) :
    (∃ x ∈ ts, w ∈ inv'.kind.seen x.1.values) ∨ w ∈ inv.tracked := by
  suffices hkind : inv'.kind = inv.kind ∧
      ((∃ x ∈ ts, w ∈ inv.kind.seen x.1.values) ∨ w ∈ inv.tracked) by
    rw [hkind.1]
    exact hkind.2
  induction ts generalizing inv with
  | nil =>
    cases h
    exact ⟨rfl, .inr hw⟩
  | cons t ts ih =>
    rw [addAll?_cons] at h
    obtain ⟨next, hnext, hrest⟩ := Option.bind_eq_some_iff.mp h
    obtain ⟨hkind, hseen⟩ := ih hrest
    rw [kind_add? hnext] at hkind hseen
    refine ⟨hkind, ?_⟩
    rcases hseen with ⟨x, hx, hseen⟩ | hnow
    · exact .inl ⟨x, List.mem_cons_of_mem t hx, hseen⟩
    · rcases mem_tracked_add? hnext hnow with hseen | hbefore
      · exact .inl ⟨t, List.mem_cons_self, hseen⟩
      · exact .inr hbefore

end Runs

end LikelyInvariants
