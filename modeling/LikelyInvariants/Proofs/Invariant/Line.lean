import LikelyInvariants.Proofs.Invariant.Feeding

/-!
# Lines are exact

A line is fixed by the first two pairs of different `x`, and every later pair is checked against it.
All of this is computed within 64 bits, but nothing is rounded or wraps around: what a pair does to
a line is described by equations between unbounded integers (`LineFit.add?_cases`). So the
coefficients are right for all pairs, also for those before they were fixed, and a line that fits
all pairs is found if what is computed on the way has 64 bits (`Linear.exact_addAll?`).

Two operations are not checked on a machine. The quotient of the differences stops the program where
the divisor is zero or the result does not fit; a look at the remainder comes before it, and that is
enough (`LineFit.addDividing_eq`). The sum of the counter stops it where it does not fit, and nothing
prevents that: a survivor is past it as soon as `2 ^ 64` samples were counted
(`Linear.addAllUnchecked_of_survivor`).
-/

namespace LikelyInvariants

/-! ## Integers of 64 bits -/

section Words

/-- Whether an integer has 64 bits. -/
def IsWord (n : Int) : Prop := Int64.minValue.toInt ≤ n ∧ n ≤ Int64.maxValue.toInt

instance : DecidablePred IsWord := fun _ => inferInstanceAs (Decidable (_ ∧ _))

theorem isWord_toInt (w : Int64) : IsWord w.toInt := ⟨w.minValue_le_toInt, w.toInt_le⟩

theorem toInt_ofInt {n : Int} (h : IsWord n) : (Int64.ofInt n).toInt = n := by
  have hhigh := h.2
  rw [Int64.toInt_maxValue] at hhigh
  exact Int64.toInt_ofInt_of_le h.1 (by omega)

/-- A result that fits is exact. -/
theorem toInt_of_ofInt? {n : Int} {m : Int64} (h : Int64.ofInt? n = some m) : m.toInt = n := by
  unfold Int64.ofInt? at h
  split at h
  · next hfits =>
    cases h
    exact toInt_ofInt hfits
  · cases h

theorem ofInt?_eq_some_iff {n : Int} {w : Int64} : Int64.ofInt? n = some w ↔ w.toInt = n := by
  refine ⟨toInt_of_ofInt?, ?_⟩
  rintro rfl
  have hfits : Int64.minValue.toInt ≤ w.toInt ∧ w.toInt ≤ Int64.maxValue.toInt := isWord_toInt w
  rw [Int64.ofInt?, if_pos hfits, Int64.ofInt_toInt]

theorem exists_ofInt?_iff {n : Int} : (∃ w, Int64.ofInt? n = some w) ↔ IsWord n := by
  constructor
  · rintro ⟨w, hw⟩
    rw [← toInt_of_ofInt? hw]
    exact isWord_toInt w
  · intro h
    exact ⟨Int64.ofInt n, ofInt?_eq_some_iff.mpr (toInt_ofInt h)⟩

/-- There is an exact quotient just if the divisor is not zero and some word times the divisor is
the dividend. -/
theorem divExact?_eq_some_iff {a b q : Int64} :
    a.divExact? b = some q ↔ b.toInt ≠ 0 ∧ a.toInt = q.toInt * b.toInt := by
  unfold Int64.divExact?
  constructor
  · intro h
    split at h
    · next hexact =>
      refine ⟨hexact.1, ?_⟩
      rw [toInt_of_ofInt? h, Int.mul_comm]
      exact (Int.mul_ediv_cancel_of_emod_eq_zero hexact.2).symm
    · cases h
  · rintro ⟨hne, heq⟩
    have hdvd : b.toInt ∣ a.toInt := ⟨q.toInt, by rw [heq, Int.mul_comm]⟩
    rw [if_pos ⟨hne, Int.emod_eq_zero_of_dvd hdvd⟩, ofInt?_eq_some_iff]
    exact (Int.ediv_eq_of_eq_mul_left hne heq).symm

end Words

/-! ## What a pair does to a line -/

namespace LineFit

section Inversion

variable {a b x₁ y₁ x y : Int64} {fit fit' : LineFit}

/-- A line that joins a first point to a second one, with everything within 64 bits that is computed
to find it. -/
structure Joins (a b x₁ y₁ x y : Int64) : Prop where
  slope : a ≠ 0
  first : y₁.toInt = a.toInt * x₁.toInt + b.toInt
  second : y.toInt = a.toInt * x.toInt + b.toInt
  dx : IsWord (x.toInt - x₁.toInt)
  dy : IsWord (y.toInt - y₁.toInt)
  product : IsWord (a.toInt * x₁.toInt)

theorem passes_iff : passes a b x y ↔
    IsWord (a.toInt * x.toInt) ∧ y.toInt = a.toInt * x.toInt + b.toInt := by
  unfold passes Int64.mul? Int64.add?
  rw [beq_iff_eq, Option.bind_eq_some_iff, ← exists_ofInt?_iff]
  constructor
  · rintro ⟨product, hproduct, hsum⟩
    rw [toInt_of_ofInt? hproduct] at hsum
    exact ⟨⟨product, hproduct⟩, toInt_of_ofInt? hsum⟩
  · rintro ⟨⟨product, hproduct⟩, hy⟩
    refine ⟨product, hproduct, ofInt?_eq_some_iff.mpr ?_⟩
    rw [toInt_of_ofInt? hproduct, hy]

theorem Joins.of_solve? (h : solve? x₁ y₁ x y = some fit) :
    ∃ a b, fit = line a b ∧ Joins a b x₁ y₁ x y := by
  unfold solve? at h
  obtain ⟨dx, hdx, h⟩ := Option.bind_eq_some_iff.mp h
  obtain ⟨dy, hdy, h⟩ := Option.bind_eq_some_iff.mp h
  split at h
  · cases h
  · next hne =>
    obtain ⟨a, ha, h⟩ := Option.bind_eq_some_iff.mp h
    obtain ⟨b, hb, h⟩ := Option.bind_eq_some_iff.mp h
    obtain ⟨product, hproduct, hb⟩ := Option.bind_eq_some_iff.mp hb
    cases h
    have hslope := (divExact?_eq_some_iff.mp ha).2
    have hstep : a.toInt * (x.toInt - x₁.toInt) = a.toInt * x.toInt - a.toInt * x₁.toInt :=
      Int.mul_sub _ _ _
    have hzero : a ≠ 0 := by
      rintro rfl
      rw [Int64.toInt_zero, Int.zero_mul] at hslope
      exact hne hslope
    rw [toInt_of_ofInt? hdx, toInt_of_ofInt? hdy] at hslope
    have hintercept := toInt_of_ofInt? hb
    rw [toInt_of_ofInt? hproduct] at hintercept
    exact ⟨a, b, rfl, hzero, by omega, by omega, exists_ofInt?_iff.mp ⟨dx, hdx⟩,
      exists_ofInt?_iff.mp ⟨dy, hdy⟩, exists_ofInt?_iff.mp ⟨product, hproduct⟩⟩

/-- A line that joins two points of different `x` is the one that is found. -/
theorem Joins.solve? (h : Joins a b x₁ y₁ x y) (hx : x ≠ x₁) :
    LineFit.solve? x₁ y₁ x y = some (line a b) := by
  obtain ⟨dx, hdx⟩ := exists_ofInt?_iff.mpr h.dx
  obtain ⟨dy, hdy⟩ := exists_ofInt?_iff.mpr h.dy
  obtain ⟨product, hproduct⟩ := exists_ofInt?_iff.mpr h.product
  have hdx' := toInt_of_ofInt? hdx
  have hdy' := toInt_of_ofInt? hdy
  have hslope : dy.toInt = a.toInt * dx.toInt := by
    rw [hdx', hdy', h.first, h.second, Int.mul_sub]
    omega
  have hrun : dx.toInt ≠ 0 := by
    intro hzero
    exact hx (Int64.toInt_inj.mp (by omega))
  have hrise : dy.toInt ≠ 0 := by
    rw [hslope]
    refine Int.mul_ne_zero (fun hzero => h.slope ?_) hrun
    exact Int64.toInt_inj.mp (hzero.trans Int64.toInt_zero.symm)
  have ha : dy.divExact? dx = some a := divExact?_eq_some_iff.mpr ⟨hrun, hslope⟩
  have hb : y₁.sub? product = some b := by
    refine ofInt?_eq_some_iff.mpr ?_
    rw [toInt_of_ofInt? hproduct, h.first]
    omega
  have hdx : x.sub? x₁ = some dx := hdx
  have hdy : y.sub? y₁ = some dy := hdy
  have hproduct : a.mul? x₁ = some product := hproduct
  simp [LineFit.solve?, hdx, hdy, hrise, ha, hproduct, hb]

/-- A pair is the first one, or the first one again, or it fixes the line, or it lies on it. -/
theorem add?_cases (h : fit.add? x y = some fit') :
    (fit = unknown ∨ fit = through x y) ∧ fit' = through x y ∨
    (∃ x₁ y₁ a b, fit = through x₁ y₁ ∧ x ≠ x₁ ∧ fit' = line a b ∧ Joins a b x₁ y₁ x y) ∨
    ∃ a b, fit = line a b ∧ fit' = line a b ∧ IsWord (a.toInt * x.toInt) ∧
      y.toInt = a.toInt * x.toInt + b.toInt := by
  cases fit with
  | unknown =>
    cases h
    exact .inl ⟨.inl rfl, rfl⟩
  | through x₁ y₁ =>
    simp only [add?] at h
    split at h
    · next hx =>
      split at h
      · next hy =>
        cases h
        subst hx hy
        exact .inl ⟨.inr rfl, rfl⟩
      · cases h
    · next hx =>
      obtain ⟨a, b, hfit, hjoins⟩ := Joins.of_solve? h
      exact .inr (.inl ⟨x₁, y₁, a, b, rfl, hx, hfit, hjoins⟩)
  | line a b =>
    simp only [add?] at h
    split at h
    · next hpasses =>
      cases h
      exact .inr (.inr ⟨a, b, rfl, rfl, passes_iff.mp hpasses⟩)
    · cases h

end Inversion

/-! ## Runs of pairs -/

section Exact

variable {a b x y : Int64} {fit fit' : LineFit} {seen : List (Int64 × Int64)}

/-- What is known of the line is what the pairs seen so far say: they are all one, or they lie on a
line that is not flat. -/
def IsExact (seen : List (Int64 × Int64)) : LineFit → Prop
  | unknown => seen = []
  | through x y => ∀ p ∈ seen, p = (x, y)
  | line a b => a ≠ 0 ∧ ∀ p ∈ seen, p.2.toInt = a.toInt * p.1.toInt + b.toInt

theorem IsExact.add? (h : fit.IsExact seen) (hadd : fit.add? x y = some fit') :
    fit'.IsExact (seen ++ [(x, y)]) := by
  rcases add?_cases hadd with
    ⟨hfit, rfl⟩ | ⟨x₁, y₁, a, b, rfl, -, rfl, hjoins⟩ | ⟨a, b, rfl, rfl, -, hy⟩
  · have hsame : ∀ p ∈ seen, p = (x, y) := by
      rcases hfit with rfl | rfl
      · obtain rfl : seen = [] := h
        simp
      · exact h
    simpa [IsExact, or_imp, forall_and] using hsame
  · refine ⟨hjoins.slope, fun p hp => ?_⟩
    rcases List.mem_append.mp hp with hp | hp
    · rw [h p hp]
      exact hjoins.first
    · rw [List.mem_singleton.mp hp]
      exact hjoins.second
  · refine ⟨h.1, fun p hp => ?_⟩
    rcases List.mem_append.mp hp with hp | hp
    · exact h.2 p hp
    · rw [List.mem_singleton.mp hp]
      exact hy

/-- What is known as long as all pairs lie on one line: the first pair or the line. -/
def IsOnWay (a b x₁ y₁ : Int64) (fit : LineFit) : Prop := fit = through x₁ y₁ ∨ fit = line a b

/-- A pair on the line does not lead astray, provided that what is computed has 64 bits. -/
theorem IsOnWay.add? {x₁ y₁ : Int64} (h : fit.IsOnWay a b x₁ y₁) (hjoins : Joins a b x₁ y₁ x y)
    (hproduct : IsWord (a.toInt * x.toInt)) :
    ∃ fit', fit.add? x y = some fit' ∧ fit'.IsOnWay a b x₁ y₁ := by
  rcases h with rfl | rfl
  · by_cases hx : x = x₁
    · have hy : y = y₁ := by
        refine Int64.toInt_inj.mp ?_
        rw [hjoins.second, hjoins.first, hx]
      exact ⟨through x₁ y₁, by simp [LineFit.add?, hx, hy], .inl rfl⟩
    · refine ⟨line a b, ?_, .inr rfl⟩
      rw [LineFit.add?, if_neg hx]
      exact hjoins.solve? hx
  · refine ⟨line a b, ?_, .inr rfl⟩
    rw [LineFit.add?, if_pos (passes_iff.mpr ⟨hproduct, hjoins.second⟩)]

end Exact

end LineFit

/-- A pair of integers as it is fed: in some state, a number of times. -/
structure Pair where
  x : Int64
  y : Int64
  state : ModState := .modified
  count : Nat := 1

namespace Pair

def tuple (p : Pair) : Tuple := ⟨[.int p.x, .int p.y], p.state⟩

/-- The values of the pair. -/
def point (p : Pair) : Int64 × Int64 := (p.x, p.y)

/-- The tuple of the pair with its count. -/
def fed (p : Pair) : Tuple × Nat := (p.tuple, p.count)

end Pair

namespace Linear

section Runs

variable {s s' : Linear} {p : Pair} {ps : List Pair} {seen : List (Int64 × Int64)} {a b : Int64}

/-- The invariant after some pairs, or nothing if one of them falsifies it. -/
def addAll? (ps : List Pair) (s : Linear) : Option Linear :=
  ps.foldlM (fun s p => s.add? p.tuple p.count) s

theorem add?_pair (p : Pair) (s : Linear) : s.add? p.tuple p.count =
    (s.fit.add? p.x p.y).map fun fit => { fit, samples := s.samples + p.count } := rfl

theorem addAll?_cons (p : Pair) (ps : List Pair) (s : Linear) :
    addAll? (p :: ps) s = (s.add? p.tuple p.count).bind (addAll? ps) := rfl

/-- A survivor knows of all pairs and has counted them. -/
theorem isExact_addAll? (h : addAll? ps s = some s') (hs : s.fit.IsExact seen) :
    s'.fit.IsExact (seen ++ ps.map Pair.point) ∧
      s'.samples = s.samples + total (ps.map Pair.fed) := by
  induction ps generalizing s seen with
  | nil =>
    cases h
    simpa using hs
  | cons p ps ih =>
    rw [addAll?_cons, add?_pair] at h
    obtain ⟨next, hnext, hrest⟩ := Option.bind_eq_some_iff.mp h
    obtain ⟨fit, hfit, rfl⟩ := Option.map_eq_some_iff.mp hnext
    obtain ⟨hexact, hsamples⟩ := ih hrest (hs.add? hfit)
    refine ⟨by simpa [Pair.point] using hexact, ?_⟩
    rw [hsamples, List.map_cons, total_cons, Nat.add_assoc]
    rfl

theorem isExact_fresh : ({} : Linear).fit.IsExact [] := rfl

/-- All pairs lie on a line that is not flat. What has to be computed on the way to it, starting
from the first pair, and to check the pairs against it has 64 bits. -/
structure IsInReach (a b : Int64) (ps : List Pair) : Prop where
  slope : a ≠ 0
  onLine : ∀ p ∈ ps, p.y.toInt = a.toInt * p.x.toInt + b.toInt
  dx : ∀ first ∈ ps.head?, ∀ p ∈ ps, IsWord (p.x.toInt - first.x.toInt)
  dy : ∀ first ∈ ps.head?, ∀ p ∈ ps, IsWord (p.y.toInt - first.y.toInt)
  products : ∀ p ∈ ps, IsWord (a.toInt * p.x.toInt)

theorem exists_addAll?_of_joins {x₁ y₁ : Int64} (hs : s.fit.IsOnWay a b x₁ y₁)
    (h : ∀ p ∈ ps, LineFit.Joins a b x₁ y₁ p.x p.y ∧ IsWord (a.toInt * p.x.toInt)) :
    ∃ s', addAll? ps s = some s' ∧ s'.fit.IsOnWay a b x₁ y₁ := by
  induction ps generalizing s with
  | nil => exact ⟨s, rfl, hs⟩
  | cons p ps ih =>
    obtain ⟨hjoins, hproduct⟩ := h p List.mem_cons_self
    obtain ⟨fit, hfit, hway⟩ := hs.add? hjoins hproduct
    obtain ⟨s', hrest, hs'⟩ := ih (s := { fit, samples := s.samples + p.count }) hway
      fun q hq => h q (List.mem_cons_of_mem p hq)
    refine ⟨s', ?_, hs'⟩
    rw [addAll?_cons, add?_pair, hfit]
    exact hrest

/-- A line in reach is found as soon as there are two different `x`. -/
theorem IsInReach.exists_addAll? (h : IsInReach a b ps) :
    ∃ s, addAll? ps {} = some s ∧
      ((∃ p ∈ ps, ∃ q ∈ ps, p.x ≠ q.x) → s.fit.coefficients? = some (a, b)) := by
  cases ps with
  | nil => exact ⟨{}, rfl, by simp⟩
  | cons first ps =>
    have hjoins : ∀ p ∈ first :: ps, LineFit.Joins a b first.x first.y p.x p.y := fun p hp =>
      ⟨h.slope, h.onLine first List.mem_cons_self, h.onLine p hp, h.dx first rfl p hp,
        h.dy first rfl p hp, h.products first List.mem_cons_self⟩
    have hstart : (LineFit.through first.x first.y).IsOnWay a b first.x first.y := .inl rfl
    have hpairs : ∀ p ∈ ps, LineFit.Joins a b first.x first.y p.x p.y ∧
        IsWord (a.toInt * p.x.toInt) := fun p hp =>
      ⟨hjoins p (List.mem_cons_of_mem first hp), h.products p (List.mem_cons_of_mem first hp)⟩
    obtain ⟨s, hs, hway⟩ := exists_addAll?_of_joins
      (s := { fit := .through first.x first.y, samples := 0 + first.count }) hstart hpairs
    have hrun : addAll? (first :: ps) {} = some s := hs
    refine ⟨s, hrun, ?_⟩
    rintro ⟨p, hp, q, hq, hne⟩
    rcases hway with hthrough | hline
    · -- with the first pair alone known, all pairs would be that one
      have hexact := (isExact_addAll? hrun isExact_fresh).1
      rw [hthrough] at hexact
      have hsame : ∀ r ∈ first :: ps, r.x = first.x := fun r hr =>
        congrArg Prod.fst (hexact r.point (List.mem_map_of_mem hr))
      exact absurd ((hsame p hp).trans (hsame q hq).symm) hne
    · rw [hline]
      rfl

end Runs

end Linear

/-! ## The machine's division -/

section Division

/-- How an operation on machine integers that is not checked stops the program. -/
inductive Fault where
  | divisionByZero
  | quotientOverflow
  | sumOverflow
deriving DecidableEq

/-- The machine's quotient, rounded towards zero. -/
def quotient (a b : Int64) : Except Fault Int64 :=
  if b = 0 then .error .divisionByZero
  else if a = Int64.minValue ∧ b = -1 then .error .quotientOverflow
  else .ok (a / b)

/-- The remainder of the machine's division where that has a result. -/
def remainder? (a b : Int64) : Option Int64 := (quotient a b).toOption.map fun _ => a % b

variable {a b : Int64}

theorem quotient_cases (a b : Int64) :
    b = 0 ∧ quotient a b = .error .divisionByZero ∨
      b ≠ 0 ∧ a = Int64.minValue ∧ b = -1 ∧ quotient a b = .error .quotientOverflow ∨
      b ≠ 0 ∧ (a / b).toInt = a.toInt.tdiv b.toInt ∧ quotient a b = .ok (a / b) := by
  unfold quotient
  by_cases hzero : b = 0
  · exact .inl ⟨hzero, if_pos hzero⟩
  · rw [if_neg hzero]
    by_cases hextreme : a = Int64.minValue ∧ b = -1
    · exact .inr (.inl ⟨hzero, hextreme.1, hextreme.2, if_pos hextreme⟩)
    · refine .inr (.inr ⟨hzero, ?_, if_neg hextreme⟩)
      by_cases ha : a = Int64.minValue
      · exact Int64.toInt_div_of_ne_right a b fun hb => hextreme ⟨ha, hb⟩
      · exact Int64.toInt_div_of_ne_left a b ha

/-- After a look at the remainder the quotient is safe and exact. -/
theorem divExact?_of_remainder? (h : remainder? a b = some 0) :
    ∃ q, quotient a b = .ok q ∧ a.divExact? b = some q := by
  unfold remainder? at h
  rcases quotient_cases a b with ⟨-, hquotient⟩ | ⟨-, -, -, hquotient⟩ | ⟨hne, hdiv, hquotient⟩ <;>
    rw [hquotient] at h
  · cases h
  · cases h
  · refine ⟨a / b, hquotient, divExact?_eq_some_iff.mpr ⟨fun hzero => hne ?_, ?_⟩⟩
    · exact Int64.toInt_inj.mp (hzero.trans Int64.toInt_zero.symm)
    · have hremainder : a % b = 0 := Option.some.inj h
      have hmod : a.toInt.tmod b.toInt = 0 := by
        rw [← Int64.toInt_mod, hremainder, Int64.toInt_zero]
      rw [hdiv]
      exact (Int.tdiv_mul_cancel (Int.dvd_of_tmod_eq_zero hmod)).symm

/-- Without a remainder of zero there is no exact quotient. -/
theorem divExact?_eq_none_of_remainder? (h : remainder? a b ≠ some 0) : a.divExact? b = none := by
  refine Option.eq_none_iff_forall_ne_some.mpr fun q hq => h ?_
  obtain ⟨hne, heq⟩ := divExact?_eq_some_iff.mp hq
  unfold remainder?
  rcases quotient_cases a b with ⟨rfl, -⟩ | ⟨-, rfl, rfl, -⟩ | ⟨-, -, hquotient⟩
  · exact absurd Int64.toInt_zero hne
  · -- the quotient would be the one number that has no word
    have hhigh := q.toInt_lt
    rw [Int64.toInt_minValue, show (-1 : Int64).toInt = -1 from rfl] at heq
    omega
  · rw [hquotient]
    refine congrArg some (Int64.toInt_inj.mp ?_)
    rw [Int64.toInt_mod, heq, Int.mul_tmod_left, Int64.toInt_zero]

namespace LineFit

/-- The line through two points of different `x`, found by the machine's division. -/
def solveDividing (x₁ y₁ x y : Int64) : Except Fault (Option LineFit) :=
  match x.sub? x₁, y.sub? y₁ with
  | some dx, some dy =>
    if dy = 0 ∨ remainder? dy dx ≠ some 0 then .ok none
    else (quotient dy dx).map fun a => ((a.mul? x₁).bind y₁.sub?).map (line a)
  | _, _ => .ok none

/-- What is known after one more pair, or how the program stops. -/
def addDividing (x y : Int64) : LineFit → Except Fault (Option LineFit)
  | through x₁ y₁ =>
    if x = x₁ then .ok (if y = y₁ then some (through x₁ y₁) else none) else solveDividing x₁ y₁ x y
  | fit => .ok (fit.add? x y)

theorem solveDividing_eq (x₁ y₁ x y : Int64) :
    solveDividing x₁ y₁ x y = .ok (solve? x₁ y₁ x y) := by
  unfold solveDividing solve?
  cases x.sub? x₁ with
  | none => rfl
  | some dx =>
    cases y.sub? y₁ with
    | none => rfl
    | some dy =>
      have hzero : dy = 0 ↔ dy.toInt = 0 := by rw [← Int64.toInt_inj, Int64.toInt_zero]
      by_cases hrise : dy.toInt = 0
      · simp [hzero, hrise]
      · by_cases hremainder : remainder? dy dx = some 0
        · obtain ⟨a, hquotient, hexact⟩ := divExact?_of_remainder? hremainder
          simp only [hzero, hrise, hremainder, hquotient, hexact, ne_eq, not_true, or_self, if_false,
            Option.bind_eq_bind, Option.bind_some, Option.map_eq_bind]
          rfl
        · simp [hzero, hrise, hremainder, divExact?_eq_none_of_remainder? hremainder]

/-- The machine's division never stops the program, and finds the same line. -/
theorem addDividing_eq (x y : Int64) (fit : LineFit) :
    fit.addDividing x y = .ok (fit.add? x y) := by
  cases fit with
  | unknown => rfl
  | line a b => rfl
  | through x₁ y₁ =>
    simp only [addDividing, add?, solveDividing_eq]
    split <;> rfl

end LineFit

end Division

namespace Linear

section Unchecked

/-- The machine's sum of a counter of 64 bits and a count. -/
def tally (samples count : Nat) : Except Fault Nat :=
  if samples + count < UInt64.size then .ok (samples + count) else .error .sumOverflow

/-- The invariant after some pairs, or how the program stops: with the machine's division, and with
the machine's sum for a pair that is accepted. -/
def addAllUnchecked : List Pair → Linear → Except Fault (Option Linear)
  | [], s => .ok (some s)
  | p :: ps, s => do
    match ← s.fit.addDividing p.x p.y with
    | some fit =>
      let samples ← tally s.samples p.count
      addAllUnchecked ps { fit, samples }
    | none => return none

variable {s s' : Linear} {p : Pair} {ps : List Pair}

theorem addAllUnchecked_refused (h : s.fit.add? p.x p.y = none) :
    addAllUnchecked (p :: ps) s = .ok none := by
  rw [addAllUnchecked, LineFit.addDividing_eq, h]
  rfl

theorem addAllUnchecked_counted {fit : LineFit} (h : s.fit.add? p.x p.y = some fit)
    (hfits : s.samples + p.count < UInt64.size) :
    addAllUnchecked (p :: ps) s = addAllUnchecked ps { fit, samples := s.samples + p.count } := by
  rw [addAllUnchecked, LineFit.addDividing_eq, h]
  simp only [tally, if_pos hfits]
  rfl

theorem addAllUnchecked_uncounted {fit : LineFit} (h : s.fit.add? p.x p.y = some fit)
    (hfull : UInt64.size ≤ s.samples + p.count) :
    addAllUnchecked (p :: ps) s = .error .sumOverflow := by
  rw [addAllUnchecked, LineFit.addDividing_eq, h]
  simp only [tally, if_neg (Nat.not_lt.mpr hfull)]
  rfl

/-- Only the sum can stop the program, and only if the counts do not fit together. -/
theorem addAllUnchecked_cases (ps : List Pair) (s : Linear) :
    addAllUnchecked ps s = .ok (addAll? ps s) ∨
      addAllUnchecked ps s = .error .sumOverflow ∧
        UInt64.size ≤ s.samples + total (ps.map Pair.fed) := by
  induction ps generalizing s with
  | nil => exact .inl rfl
  | cons p ps ih =>
    rw [addAll?_cons, add?_pair, List.map_cons, total_cons, ← Nat.add_assoc]
    cases hfit : s.fit.add? p.x p.y with
    | none => exact .inl (addAllUnchecked_refused hfit)
    | some fit =>
      by_cases hfits : s.samples + p.count < UInt64.size
      · rw [addAllUnchecked_counted hfit hfits]
        exact ih { fit, samples := s.samples + p.count }
      · have hfull := Nat.not_lt.mp hfits
        exact .inr ⟨addAllUnchecked_uncounted hfit hfull, Nat.le_add_right_of_le hfull⟩

/-- Where no pair is refused, the program is stopped as soon as the counts do not fit together. -/
theorem addAllUnchecked_of_survivor (h : addAll? ps s = some s') (hs : s.samples < UInt64.size)
    (hfull : UInt64.size ≤ s.samples + total (ps.map Pair.fed)) :
    addAllUnchecked ps s = .error .sumOverflow := by
  induction ps generalizing s with
  | nil => exact absurd hs (Nat.not_lt.mpr hfull)
  | cons p ps ih =>
    rw [addAll?_cons, add?_pair] at h
    obtain ⟨next, hnext, hrest⟩ := Option.bind_eq_some_iff.mp h
    obtain ⟨fit, hfit, rfl⟩ := Option.map_eq_some_iff.mp hnext
    by_cases hfits : s.samples + p.count < UInt64.size
    · rw [List.map_cons, total_cons, ← Nat.add_assoc] at hfull
      rw [addAllUnchecked_counted hfit hfits]
      exact ih hrest hfits hfull
    · exact addAllUnchecked_uncounted hfit (Nat.not_lt.mp hfits)

theorem addAllUnchecked_of_lt (h : s.samples + total (ps.map Pair.fed) < UInt64.size) :
    addAllUnchecked ps s = .ok (addAll? ps s) :=
  (addAllUnchecked_cases ps s).resolve_right fun hfault => Nat.not_le.mpr h hfault.2

end Unchecked

/-- **Lines are exact.** Whatever pairs are fed, the division that is not checked never stops the
program, and the sum of the counter does not as long as the counts sum up to less than `2 ^ 64`; if
they do not and no pair is refused, it does. As long as the invariant is alive it has counted all
pairs, and its coefficients, once they are fixed, are those of a line that is not flat and has every
pair on it; before that all pairs are the same. And a line that is in reach of 64 bits is found, as
soon as two pairs differ in `x`. -/
theorem exact_addAll? (ps : List Pair) :
    ((total (ps.map Pair.fed) < UInt64.size → addAllUnchecked ps {} = .ok (addAll? ps {})) ∧
      (addAllUnchecked ps {} = .ok (addAll? ps {}) ∨
        addAllUnchecked ps {} = .error .sumOverflow) ∧
      ((addAll? ps {}).isSome → UInt64.size ≤ total (ps.map Pair.fed) →
        addAllUnchecked ps {} = .error .sumOverflow)) ∧
    (∀ s, addAll? ps {} = some s →
      s.samples = total (ps.map Pair.fed) ∧
      (∀ a b, s.fit.coefficients? = some (a, b) →
        a ≠ 0 ∧ ∀ p ∈ ps, p.y.toInt = a.toInt * p.x.toInt + b.toInt) ∧
      (s.fit.coefficients? = none → ∀ p ∈ ps, ∀ q ∈ ps, p.x = q.x ∧ p.y = q.y)) ∧
    ∀ a b, IsInReach a b ps → ∃ s, addAll? ps {} = some s ∧
      ((∃ p ∈ ps, ∃ q ∈ ps, p.x ≠ q.x) → s.fit.coefficients? = some (a, b)) := by
  have hzero (n : Nat) : ({} : Linear).samples + n = n := Nat.zero_add n
  refine ⟨⟨fun hfits => ?_, ?_, fun halive hfull => ?_⟩, fun s hs => ?_,
    fun a b h => h.exists_addAll?⟩
  · exact addAllUnchecked_of_lt (by rwa [hzero])
  · exact (addAllUnchecked_cases ps {}).imp_right And.left
  · obtain ⟨s, hs⟩ := Option.isSome_iff_exists.mp halive
    exact addAllUnchecked_of_survivor hs (by decide) (by rwa [hzero])
  · obtain ⟨hexact, hsamples⟩ := isExact_addAll? hs isExact_fresh
    have hpoint {p : Pair} (hp : p ∈ ps) : p.point ∈ [] ++ ps.map Pair.point :=
      List.mem_map_of_mem hp
    refine ⟨by simpa using hsamples, fun a b hab => ?_, fun hnone p hp q hq => ?_⟩
    · cases hfit : s.fit <;> rw [hfit] at hab hexact <;> cases hab
      exact ⟨hexact.1, fun p hp => hexact.2 p.point (hpoint hp)⟩
    · cases hfit : s.fit with
      | unknown =>
        rw [hfit] at hexact
        exact absurd (hpoint hp) (by rw [hexact]; simp)
      | through x y =>
        rw [hfit] at hexact
        have hsame := (hexact p.point (hpoint hp)).trans (hexact q.point (hpoint hq)).symm
        exact Prod.mk.inj hsame
      | line a b =>
        rw [hfit] at hnone
        cases hnone

-- the slope would be `2 ^ 63`, which has no word, and the machine's quotient would overflow
example : addAll? [{ x := 0, y := 0 }, { x := -1, y := Int64.minValue }] {} = none := by decide

/-! ### A full counter -/

section Full

variable {s : Linear}

theorem total_replicate (n : Nat) (p : Pair) :
    total ((List.replicate n p).map Pair.fed) = n * p.count := by
  induction n with
  | zero => simp
  | succ n ih =>
    rw [List.replicate_succ, List.map_cons, total_cons, ih, Nat.succ_mul, Nat.add_comm]
    rfl

/-- One pair over and over is never refused. -/
theorem isSome_addAll?_replicate (n : Nat) (p : Pair)
    (hs : s.fit = .unknown ∨ s.fit = .through p.x p.y) :
    (addAll? (List.replicate n p) s).isSome := by
  induction n generalizing s with
  | zero => rfl
  | succ n ih =>
    have hadd : s.fit.add? p.x p.y = some (.through p.x p.y) := by
      rcases hs with hs | hs <;> simp [hs, LineFit.add?]
    rw [List.replicate_succ, addAll?_cons, add?_pair, hadd]
    exact ih (.inr rfl)

/-- Many calls with one pair and a great count fill the counter. -/
theorem addAllUnchecked_replicate {n : Nat} {p : Pair} (h : UInt64.size ≤ n * p.count) :
    addAllUnchecked (List.replicate n p) {} = .error .sumOverflow := by
  obtain ⟨s, hs⟩ := Option.isSome_iff_exists.mp (isSome_addAll?_replicate (s := {}) n p (.inl rfl))
  refine addAllUnchecked_of_survivor hs (by decide) ?_
  rwa [total_replicate, show ({} : Linear).samples = 0 from rfl, Nat.zero_add]

end Full

/-- The counter is full after `2 ^ 32 + 2` calls with the greatest count of 32 bits. And a pair
counts for the line also where it is fed no times: without the first one, the line would be
`y = 4 * x + 1`. -/
theorem full_counter_stops :
    addAllUnchecked
        (List.replicate (UInt32.size + 2) { x := 0, y := 0, count := UInt32.size - 1 }) {} =
      .error .sumOverflow ∧
    addAll? [{ x := 0, y := 0, count := 0 }, { x := 1, y := 5 }, { x := 2, y := 9 }] {} = none ∧
    addAll? [{ x := 1, y := 5 }, { x := 2, y := 9 }] {} =
      some { fit := .line 4 1, samples := 2 } :=
  ⟨addAllUnchecked_replicate (by decide), by decide, by decide⟩

end Linear

end LikelyInvariants
