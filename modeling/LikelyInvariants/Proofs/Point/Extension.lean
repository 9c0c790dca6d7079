import LikelyInvariants.Proofs.Derivation.Saturation

/-!
# Extended samples

The raw sample and the derivations of a point are two streams, and the catalog says which one the
next slot is taken from. The derivations are in the order of the catalog, and each variable stands
after those it is derived from (`Point.IsLaidOut`). Every request to a point keeps it so, since what
a pass derives goes to the end.

While a sample is extended, the derivation that comes next is that of the next derived variable
(`Extension.IsAt`), and the slots of its bases are filled. A slot that is filled is not touched
again, so what was computed from the slots so far is what the whole sample gives
(`Extension.Completes`). No derivation is left at the end, and no raw slot either
(`Point.extend_after`).
-/

namespace LikelyInvariants

/-! ## Readings -/

theorem Reading.of?_eq_some_iff {value : Value} {state : ModState} {r : Reading} :
    Reading.of? value state = some r ↔ r.value = value ∧ r.state = state := by
  obtain ⟨v, modified⟩ := r
  cases state <;> cases modified <;> simp [of?, Reading.state, eq_comm]

/-! ## Slots in catalog order -/

namespace Catalog

section Order

variable {c : Catalog} {done rest : List Variable} {v : Variable}

theorem IsIndexed.index_eq_length (h : c.IsIndexed) (hvars : c.vars = done ++ v :: rest) :
    v.index = done.length := by
  refine h done.length v ?_
  rw [var?, hvars, List.getElem?_append_right (Nat.le_refl _), Nat.sub_self]
  rfl

/-- The first variables have the first slots. -/
theorem IsSlotted.filterMap_slot (h : c.IsSlotted) (hvars : c.vars = done ++ rest) :
    done.filterMap (·.slot) = List.range (done.filterMap (·.slot)).length := by
  have hprefix : done.filterMap (·.slot) <+: List.range c.slotCount := by
    rw [← h.slots, hvars, List.filterMap_append]
    exact List.prefix_append _ _
  have hle := hprefix.length_le
  rw [List.length_range] at hle
  have htake := List.prefix_iff_eq_take.mp hprefix
  rwa [List.take_range, Nat.min_eq_left hle] at htake

theorem IsSlotted.slot_lt_of_mem (h : c.IsSlotted) (hvars : c.vars = done ++ rest) {k : Nat}
    (hv : v ∈ done) (hk : v.slot = some k) : k < (done.filterMap (·.slot)).length := by
  rw [← List.mem_range, ← h.filterMap_slot hvars]
  exact List.mem_filterMap.mpr ⟨v, hv, hk⟩

/-- A variable that is not constant has the next slot. -/
theorem IsSlotted.slot_eq_length (h : c.IsSlotted) (hvars : c.vars = done ++ v :: rest)
    (hv : v.isConstant = false) : v.slot = some (done.filterMap (·.slot)).length := by
  have hmem : v ∈ c.vars := by simp [hvars]
  cases hslot : v.slot with
  | none =>
    rw [(h.slot_eq_none_iff v hmem).mp hslot] at hv
    cases hv
  | some k =>
    have hvars' : c.vars = (done ++ [v]) ++ rest := by simp [hvars]
    have hslots := h.filterMap_slot hvars'
    have hlast : (done ++ [v]).filterMap (·.slot) = done.filterMap (·.slot) ++ [k] := by
      simp [hslot]
    rw [hlast, List.length_append, List.length_singleton, List.range_succ] at hslots
    exact congrArg some (List.singleton_inj.mp (List.append_inj_right' hslots rfl))

/-- What was read of the first variables does not change with the slots of the others. -/
theorem IsSlotted.reading?_append (h : c.IsSlotted) (hvars : c.vars = done ++ rest)
    {slots : List (Option Reading)} (more : List (Option Reading))
    (hfilled : slots.length = (done.filterMap (·.slot)).length) {i : Nat} (hi : i < done.length) :
    c.reading? ⟨slots ++ more⟩ i = c.reading? ⟨slots⟩ i := by
  have hv : c.var? i = some done[i] := by
    rw [var?, hvars, List.getElem?_append_left hi, List.getElem?_eq_getElem hi]
  unfold reading?
  rw [hv]
  cases hconstant : done[i].constant with
  | some value => simp [hconstant]
  | none =>
    cases hslot : done[i].slot with
    | none => simp [hconstant, hslot]
    | some k =>
      have hk : k < slots.length := by
        rw [hfilled]
        exact h.slot_lt_of_mem hvars (List.getElem_mem hi) hslot
      simp [hconstant, hslot, Sample.reading?, List.getElem?_append_left hk]

theorem project?_congr {s s' : Sample} {key : List Nat}
    (h : ∀ i ∈ key, c.reading? s i = c.reading? s' i) : c.project? key s = c.project? key s' := by
  unfold project?
  suffices hmapM : key.mapM (c.reading? s) = key.mapM (c.reading? s') by rw [hmapM]
  induction key with
  | nil => rfl
  | cons i key ih =>
    rw [List.mapM_cons, List.mapM_cons, h i List.mem_cons_self,
      ih fun j hj => h j (List.mem_cons_of_mem i hj)]

/-- What a derivation gives for a sample. -/
def derivedReading? (c : Catalog) (d : Derivation) (s : Sample) : Option Reading := do
  let t ← c.project? d.bases s
  let value ← d.compute? t.values
  Reading.of? value t.state

/-- A derived variable has a reading just if its bases all have one and the recipe has a result,
which is the value then; the state is the joint state of the bases. -/
theorem derivedReading?_eq_some_iff {d : Derivation} {s : Sample} {r : Reading} :
    c.derivedReading? d s = some r ↔ ∃ t, c.project? d.bases s = some t ∧
      d.compute? t.values = some r.value ∧ r.state = t.state := by
  unfold derivedReading?
  simp only [Option.bind_eq_bind, Option.bind_eq_some_iff]
  refine exists_congr fun t => and_congr_right fun _ => ?_
  constructor
  · rintro ⟨value, hvalue, hr⟩
    obtain ⟨rfl, hstate⟩ := Reading.of?_eq_some_iff.mp hr
    exact ⟨hvalue, hstate⟩
  · rintro ⟨hvalue, hstate⟩
    exact ⟨r.value, hvalue, Reading.of?_eq_some_iff.mpr ⟨rfl, hstate⟩⟩

theorem derivedReading?_congr {s s' : Sample} {d : Derivation}
    (h : ∀ i ∈ d.bases, c.reading? s i = c.reading? s' i) :
    c.derivedReading? d s = c.derivedReading? d s' := by
  rw [derivedReading?, derivedReading?, project?_congr h]

end Order

end Catalog

/-! ## While a sample is extended -/

namespace Point.Extension

section Loop

variable {c : Catalog} {done rest : List Variable} {v : Variable} {x : Extension} {s : Sample}

/-- Whether the derivation of the variable is one of those that are left. -/
def awaits (x : Extension) (v : Variable) : Bool := x.derivations.any (·.1 = v.index)

/-- Those of the variables whose slots are taken from the raw sample. -/
def observed (x : Extension) (vars : List Variable) : List Variable :=
  vars.filter fun v => !v.isConstant && !x.awaits v

/-- What is known between two variables of the catalog: the slots of the variables behind are
filled, and what is left of both streams is what the variables ahead will take. -/
structure IsAt (c : Catalog) (done rest : List Variable) (x : Extension) : Prop where
  indexed : c.IsIndexed
  slotted : c.IsSlotted
  vars : c.vars = done ++ rest
  filled : x.slots.length = (done.filterMap (·.slot)).length
  enough : x.raw.length = (x.observed rest).length
  ascending : x.derivations.Pairwise (·.1 < ·.1)
  derived : ∀ y ∈ x.derivations, ∃ v ∈ rest, v.index = y.1 ∧ v.isConstant = false ∧
    ∀ b ∈ y.2.bases, b < y.1

theorem step_constant (hv : v.isConstant) : step c x v = x := if_pos hv

theorem step_derived {d : Derivation} {ds : List (Nat × Derivation)} (hv : v.isConstant = false)
    (hx : x.derivations = (v.index, d) :: ds) : step c x v =
      { x with slots := x.slots ++ [c.derivedReading? d ⟨x.slots⟩], derivations := ds } := by
  unfold step
  rw [hx, hv]
  exact if_pos rfl

theorem step_observed (hv : v.isConstant = false) (hx : x.awaits v = false) : step c x v =
    { x with slots := x.slots ++ [x.raw.head?.join], raw := x.raw.tail } := by
  unfold step
  rw [hv]
  cases hds : x.derivations with
  | nil => rfl
  | cons y ds =>
    have hne : y.1 ≠ v.index := by simpa using List.any_eq_false.mp hx y (by simp [hds])
    exact if_neg hne

namespace IsAt

theorem index_lt (h : IsAt c done (v :: rest) x) : ∀ w ∈ rest, v.index < w.index := by
  have hpairwise := h.indexed.pairwise_index
  rw [h.vars] at hpairwise
  exact (List.pairwise_cons.mp (List.pairwise_append.mp hpairwise).2.1).1

/-- The derivation of the next variable comes next if it is left at all: one before it would be left
behind. -/
theorem exists_derivations_eq (h : IsAt c done (v :: rest) x) (hx : x.awaits v) :
    ∃ d ds, x.derivations = (v.index, d) :: ds := by
  obtain ⟨y, hy, hindex⟩ := List.any_eq_true.mp hx
  rw [decide_eq_true_eq] at hindex
  obtain ⟨z, ds, hds⟩ := List.exists_cons_of_ne_nil (List.ne_nil_of_mem hy)
  refine ⟨z.2, ds, ?_⟩
  suffices hfirst : z.1 = v.index by rw [hds, ← hfirst]
  obtain ⟨w, hw, hwz, -⟩ := h.derived z (by simp [hds])
  have hle : v.index ≤ w.index := by
    rcases List.mem_cons.mp hw with rfl | hw
    · exact Nat.le_refl _
    · exact Nat.le_of_lt (h.index_lt w hw)
  have hascending := h.ascending
  rw [hds, List.pairwise_cons] at hascending
  rw [hds] at hy
  rcases List.mem_cons.mp hy with rfl | hy
  · exact hindex
  · have hlt := hascending.1 y hy
    omega

/-- What the step for the next variable takes from the streams and adds to the slots: nothing for a
constant, the result of the next derivation if that is the variable's, and else a raw slot. -/
theorem step_cases (h : IsAt c done (v :: rest) x) :
    (v.isConstant = true ∧ step c x v = x ∧ x.observed (v :: rest) = x.observed rest) ∨
    (v.isConstant = false ∧ ∃ d ds, x.derivations = (v.index, d) :: ds ∧
      step c x v =
        { x with slots := x.slots ++ [c.derivedReading? d ⟨x.slots⟩], derivations := ds } ∧
      x.observed (v :: rest) = x.observed rest) ∨
    v.isConstant = false ∧ x.awaits v = false ∧ ∃ slot raw, x.raw = slot :: raw ∧
      step c x v = { x with slots := x.slots ++ [slot], raw } ∧
      x.observed (v :: rest) = v :: x.observed rest := by
  cases hv : v.isConstant with
  | true => exact .inl ⟨rfl, step_constant hv, by simp [observed, hv]⟩
  | false =>
    refine .inr ?_
    cases hx : x.awaits v with
    | true =>
      obtain ⟨d, ds, hds⟩ := h.exists_derivations_eq hx
      exact .inl ⟨rfl, d, ds, hds, step_derived hv hds, by simp [observed, hx]⟩
    | false =>
      have hobserved : x.observed (v :: rest) = v :: x.observed rest := by simp [observed, hv, hx]
      obtain ⟨slot, raw, hraw⟩ : ∃ slot raw, x.raw = slot :: raw := by
        refine List.exists_cons_of_length_pos ?_
        rw [h.enough, hobserved]
        exact Nat.succ_pos _
      refine .inr ⟨rfl, rfl, slot, raw, hraw, ?_, hobserved⟩
      rw [step_observed hv hx, hraw]
      rfl

/-- The variables ahead of the next one take the same slots after it as before it. -/
theorem observed_step (h : IsAt c done (v :: rest) x) :
    (step c x v).observed rest = x.observed rest := by
  rcases h.step_cases with ⟨-, hstep, -⟩ | ⟨-, d, ds, hds, hstep, -⟩ | ⟨-, -, slot, raw, -, hstep, -⟩
  · rw [hstep]
  · refine List.filter_congr fun w hw => ?_
    have hne : v.index ≠ w.index := Nat.ne_of_lt (h.index_lt w hw)
    rw [hstep]
    simp [awaits, hds, hne]
  · rw [hstep]
    rfl

/-- A derivation that is not the next variable's is that of a variable ahead. -/
theorem derived_ahead (h : IsAt c done (v :: rest) x) {y : Nat × Derivation}
    (hy : y ∈ x.derivations) (hother : v.isConstant = true ∨ y.1 ≠ v.index) :
    ∃ w ∈ rest, w.index = y.1 ∧ w.isConstant = false ∧ ∀ b ∈ y.2.bases, b < y.1 := by
  obtain ⟨w, hw, hindex, hconstant, hbases⟩ := h.derived y hy
  rcases List.mem_cons.mp hw with rfl | hw
  · rcases hother with hv | hne
    · rw [hconstant] at hv
      cases hv
    · exact absurd hindex.symm hne
  · exact ⟨w, hw, hindex, hconstant, hbases⟩

/-- The step that brings the sample past the next variable. -/
theorem step (h : IsAt c done (v :: rest) x) :
    IsAt c (done ++ [v]) rest (Extension.step c x v) := by
  have hvars : c.vars = (done ++ [v]) ++ rest := by simp [h.vars]
  have hfilled := h.filled
  have henough := h.enough
  have hstays := h.observed_step
  rcases h.step_cases with
    ⟨hv, hstep, hobserved⟩ | ⟨hv, d, ds, hds, hstep, hobserved⟩ |
      ⟨hv, hx, slot, raw, hraw, hstep, hobserved⟩ <;>
    rw [hobserved] at henough <;> rw [hstep] at hstays ⊢
  · have hslot : v.slot = none := (h.slotted.slot_eq_none_iff v (by simp [h.vars])).mpr hv
    refine ⟨h.indexed, h.slotted, hvars, ?_, henough, h.ascending, fun y hy => ?_⟩
    · simpa [hslot] using hfilled
    · exact h.derived_ahead hy (.inl hv)
  · have hslot := h.slotted.slot_eq_length h.vars hv
    have hascending := h.ascending
    rw [hds, List.pairwise_cons] at hascending
    refine ⟨h.indexed, h.slotted, hvars, ?_, ?_, hascending.2, fun y hy => ?_⟩
    · simpa [hslot] using hfilled
    · rw [hstays]
      exact henough
    · have hlt := hascending.1 y hy
      exact h.derived_ahead (by simp [hds, hy]) (.inr (by omega))
  · have hslot := h.slotted.slot_eq_length h.vars hv
    refine ⟨h.indexed, h.slotted, hvars, ?_, ?_, h.ascending, fun y hy => ?_⟩
    · simpa [hslot] using hfilled
    · rw [hstays]
      simpa [hraw] using henough
    · exact h.derived_ahead hy (.inr (by simpa using List.any_eq_false.mp hx y hy))

theorem foldl (h : IsAt c done rest x) :
    IsAt c (done ++ rest) [] (rest.foldl (Extension.step c) x) := by
  induction rest generalizing done x with
  | nil => simpa using h
  | cons v rest ih => simpa using ih h.step

end IsAt

/-- How a sample accounts for what was left of both streams before some variables. -/
structure Completes (c : Catalog) (rest : List Variable) (x : Extension) (s : Sample) : Prop where
  kept : x.slots <+: s.slots
  observed : (x.observed rest).map (c.reading? s ·.index) = x.raw
  derived : ∀ y ∈ x.derivations, c.reading? s y.1 = c.derivedReading? y.2 s

namespace IsAt

/-- The next slot is read as the next variable's. -/
theorem reading?_next (h : IsAt c done (v :: rest) x) (hv : v.isConstant = false)
    {slot : Option Reading} (hkept : x.slots ++ [slot] <+: s.slots) :
    c.reading? s v.index = slot := by
  have hvar : c.var? v.index = some v := h.indexed.var?_index (by simp [h.vars])
  have hslot := h.slotted.slot_eq_length h.vars hv
  have hconstant : v.constant = none := by simpa [Declaration.isConstant] using hv
  obtain ⟨more, hmore⟩ := hkept
  unfold Catalog.reading? Sample.reading?
  rw [hvar, ← hmore]
  simp [hconstant, hslot, ← h.filled]

/-- What the slots filled so far say of the variables behind is what the whole sample says. -/
theorem reading?_behind (h : IsAt c done rest x) (hkept : x.slots <+: s.slots) {i : Nat}
    (hi : i < done.length) : c.reading? ⟨x.slots⟩ i = c.reading? s i := by
  obtain ⟨more, hmore⟩ := hkept
  have hsame := h.slotted.reading?_append h.vars more h.filled hi
  rw [hmore] at hsame
  exact hsame.symm

theorem completes_step (h : IsAt c done (v :: rest) x)
    (hs : Completes c rest (Extension.step c x v) s) : Completes c (v :: rest) x s := by
  have hrest := hs.observed
  rw [h.observed_step] at hrest
  rcases h.step_cases with
    ⟨-, hstep, hobserved⟩ | ⟨hv, d, ds, hds, hstep, hobserved⟩ |
      ⟨hv, -, slot, raw, hraw, hstep, hobserved⟩ <;> rw [hstep] at hs hrest
  · exact ⟨hs.kept, by rw [hobserved, hrest], hs.derived⟩
  · have hkept : x.slots <+: s.slots := (List.prefix_append _ _).trans hs.kept
    have hown : c.reading? s v.index = c.derivedReading? d s := by
      rw [h.reading?_next hv hs.kept]
      refine Catalog.derivedReading?_congr fun b hb => h.reading?_behind hkept ?_
      obtain ⟨-, -, -, -, hbases⟩ := h.derived (v.index, d) (by simp [hds])
      rw [← h.indexed.index_eq_length h.vars]
      exact hbases b hb
    refine ⟨hkept, by rw [hobserved, hrest], fun y hy => ?_⟩
    rw [hds] at hy
    rcases List.mem_cons.mp hy with rfl | hy
    · exact hown
    · exact hs.derived y hy
  · have hkept : x.slots <+: s.slots := (List.prefix_append _ _).trans hs.kept
    refine ⟨hkept, ?_, hs.derived⟩
    rw [hobserved, List.map_cons, h.reading?_next hv hs.kept, hraw, hrest]

theorem completes_foldl (h : IsAt c done rest x) :
    Completes c rest x ⟨(rest.foldl (Extension.step c) x).slots⟩ := by
  induction rest generalizing done x with
  | nil =>
    refine ⟨List.prefix_refl _, ?_, fun y hy => ?_⟩
    · exact (List.length_eq_zero_iff.mp h.enough).symm
    · obtain ⟨v, hv, -⟩ := h.derived y hy
      simp at hv
  | cons v rest ih => exact h.completes_step (ih h.step)

end IsAt

end Loop

end Point.Extension

/-! ## The variables of a point -/

/-- The variables that a request offers to a point. -/
def PointAction.offers : PointAction → List Declaration
  | addVariables vars => vars
  | _ => []

namespace Point

open Update

section LaidOut

variable {p : Point} {given : List Declaration}

/-- The derivations are in catalog order, and each belongs to a variable that stands after those it
is derived from. The other variables were given to the point. -/
structure IsLaidOut (given : List Declaration) (p : Point) : Prop where
  indexed : p.catalog.IsIndexed
  slotted : p.catalog.IsSlotted
  ascending : p.derivations.Pairwise (·.1 < ·.1)
  derived : ∀ y ∈ p.derivations, ∃ v, p.catalog.var? y.1 = some v ∧ v.isConstant = false ∧
    v.provenance? = some y.2.provenance ∧ ∀ b ∈ y.2.bases, b < y.1
  given : ∀ v ∈ p.catalog.vars, p.derives v = false → v.toDeclaration ∈ given

namespace IsLaidOut

theorem lt_size (h : IsLaidOut given p) {y : Nat × Derivation} (hy : y ∈ p.derivations) :
    y.1 < p.catalog.size := by
  obtain ⟨v, hv, -⟩ := h.derived y hy
  exact (List.getElem?_eq_some_iff.mp hv).1

/-- Only the variables and the derivations matter. -/
theorem congr (h : IsLaidOut given p) {q : Point} (hcatalog : q.catalog = p.catalog)
    (hderivations : q.derivations = p.derivations) : IsLaidOut given q := by
  have hderives : q.derives = p.derives := by
    funext v
    rw [derives, derives, hderivations]
  refine ⟨?_, ?_, ?_, ?_, ?_⟩
  all_goals simp only [hcatalog, hderivations, hderives]
  exacts [h.indexed, h.slotted, h.ascending, h.derived, h.given]

theorem addGiven (h : IsLaidOut given p) {vars : List Declaration} (hvars : vars ⊆ given) :
    IsLaidOut given { p with catalog := p.catalog.append vars } := by
  obtain ⟨new, happend, hdeclared, -⟩ := p.catalog.vars_append vars
  refine ⟨h.indexed.append vars, h.slotted.append vars, h.ascending, fun y hy => ?_,
    fun v hv hother => ?_⟩
  · obtain ⟨v, hv, hrest⟩ := h.derived y hy
    exact ⟨v, Catalog.var?_append hv vars, hrest⟩
  · rw [happend] at hv
    rcases List.mem_append.mp hv with hv | hv
    · exact h.given v hv hother
    · exact hvars (hdeclared ▸ List.mem_map_of_mem hv)

theorem ofVariables (name : String) {vars : List Declaration} (h : vars ⊆ given) :
    IsLaidOut given (ofVariables name vars) := by
  have hempty : IsLaidOut given (Point.ofVariables name []) :=
    ⟨Catalog.isIndexed_empty, Catalog.isSlotted_empty, .nil, List.forall_mem_nil _,
      fun v hv => absurd hv List.not_mem_nil⟩
  exact hempty.addGiven h

theorem addDerived (h : IsLaidOut given p) {ds : List Derivation}
    (hds : ∀ d ∈ ds, ∀ b ∈ d.bases, b < p.catalog.size) : IsLaidOut given (p.addDerived ds) := by
  obtain ⟨new, hvars, hdeclared, hindex⟩ :=
    p.catalog.vars_append (ds.map (·.declaration p.catalog))
  refine ⟨h.indexed.append _, h.slotted.append _, ?_, fun y hy => ?_, fun v hv hother => ?_⟩
  · refine List.pairwise_append.mpr ⟨h.ascending, ?_, fun y hy z hz => ?_⟩
    · refine List.pairwise_iff_getElem.mpr fun i j hi hj hij => ?_
      simp only [List.getElem_mapIdx]
      omega
    · obtain ⟨i, hi, rfl⟩ := List.mem_mapIdx.mp hz
      exact Nat.lt_of_lt_of_le (h.lt_size hy) (Nat.le_add_right _ _)
  · rcases List.mem_append.mp hy with hy | hy
    · obtain ⟨v, hv, hrest⟩ := h.derived y hy
      exact ⟨v, Catalog.var?_append hv _, hrest⟩
    · obtain ⟨i, hi, rfl⟩ := List.mem_mapIdx.mp hy
      have hlength : new.length = ds.length := by simpa using congrArg List.length hdeclared
      have hnew : i < new.length := hlength ▸ hi
      have hdeclaration : new[i].toDeclaration = ds[i].declaration p.catalog := by
        have hmap := congrArg (·[i]?) hdeclared
        simpa [hnew, hi] using hmap
      refine ⟨new[i], ?_, ?_, ?_, fun b hb => ?_⟩
      · show (p.catalog.append _).vars[p.catalog.vars.length + i]? = _
        rw [hvars, List.getElem?_append_right (Nat.le_add_right _ _), Nat.add_sub_cancel_left,
          List.getElem?_eq_getElem hnew]
      · rw [hdeclaration]
        rfl
      · rw [hdeclaration]
        rfl
      · exact Nat.lt_of_lt_of_le (hds _ (List.getElem_mem hi) b hb) (Nat.le_add_right _ _)
  · have hnot : ¬(p.derives v ∨ v.index ∈ List.range' p.catalog.size ds.length) := by
      rw [← derives_addDerived, hother]
      exact Bool.false_ne_true
    have hcatalog : (p.addDerived ds).catalog.vars = p.catalog.vars ++ new := hvars
    rw [hcatalog] at hv
    rcases List.mem_append.mp hv with hv | hv
    · exact h.given v hv (by simpa using fun hold => hnot (.inl hold))
    · rw [List.length_map] at hindex
      exact absurd (.inr (hindex ▸ List.mem_map_of_mem hv)) hnot

theorem deriveFrom (h : IsLaidOut given p) (rules : Rules) (settings : DeriveSettings)
    (fuel lower : Nat) :
    IsLaidOut given ((deriveFrom rules settings fuel lower p.catalog.size).exec p).2 := by
  induction fuel generalizing p lower with
  | zero => exact h
  | succ fuel ih =>
    by_cases hlt : lower < p.catalog.size
    · rw [exec_deriveFrom_succ rules settings fuel hlt]
      have hbases : ∀ d ∈ p.catalog.derivePass rules settings lower p.catalog.size,
          ∀ b ∈ d.bases, b < p.catalog.size :=
        fun d hd => (Catalog.of_mem_derivePass h.indexed hd).2
      split
      · exact ih (h.addDerived hbases) p.catalog.size
      · exact h
    · rw [deriveFrom_done rules settings _ hlt]
      exact h

theorem createDerived (h : IsLaidOut given p) (rules : Rules) (settings : DeriveSettings) :
    IsLaidOut given ((createDerived rules settings).exec p).2 := by
  have hderived := h.deriveFrom rules settings (settings.maxDepth + 1) p.derivedThrough
  simp only [Point.createDerived, exec_bind, exec_get, exec_lift]
  cases p.checkGrows with
  | error e => exact h
  | ok u =>
    dsimp only
    rcases hexec : (Point.deriveFrom rules settings (settings.maxDepth + 1) p.derivedThrough
      p.catalog.size).exec p with ⟨e | upper, q⟩ <;> rw [hexec] at hderived
    · exact hderived
    · exact hderived.congr rfl rfl

theorem perform (h : IsLaidOut given p) {a : PointAction} (ha : a.offers ⊆ given) :
    IsLaidOut given ((perform a).exec p).2 := by
  cases hgrows : a.grows with
  | false =>
    have hsteady := steady_perform hgrows p
    exact h.congr hsteady.catalog hsteady.derivations
  | true =>
    cases a with
    | addVariables vars =>
      simp only [Point.perform, exec_discard]
      rcases addVariables_cases vars p with ⟨e, hexec⟩ | ⟨-, hexec⟩ <;> rw [hexec]
      · exact h
      · exact h.addGiven ha
    | createDerived rules settings =>
      simp only [Point.perform, exec_discard]
      exact h.createDerived rules settings
    | _ => cases hgrows

theorem after (h : IsLaidOut given p) {acts : List PointAction}
    (hacts : ∀ a ∈ acts, a.offers ⊆ given) : IsLaidOut given (p.after acts) := by
  induction acts generalizing p with
  | nil => exact h
  | cons a acts ih =>
    exact ih (h.perform (hacts a List.mem_cons_self)) fun b hb => hacts b (List.mem_cons_of_mem a hb)

end IsLaidOut

end LaidOut

/-! ## The extended sample -/

section Extended

variable {p : Point} {given : List Declaration}

/-- The variables that are neither constant nor derived. -/
def observed (p : Point) : List Variable :=
  p.catalog.vars.filter fun v => !v.isConstant && !p.derives v

theorem derives_iff {v : Variable} : p.derives v ↔ ∃ d, (v.index, d) ∈ p.derivations := by
  unfold derives
  simp only [List.any_eq_true, decide_eq_true_eq, Prod.exists]
  constructor
  · rintro ⟨i, d, hd, rfl⟩
    exact ⟨d, hd⟩
  · rintro ⟨d, hd⟩
    exact ⟨v.index, d, hd, rfl⟩

namespace IsLaidOut

/-- There are as many derived variables as derivations. -/
theorem length_filter_derives (h : IsLaidOut given p) :
    (p.catalog.vars.filter p.derives).length = p.derivations.length := by
  have hleft : ((p.catalog.vars.filter p.derives).map (·.index)).Nodup := by
    refine List.Pairwise.imp Nat.ne_of_lt (List.pairwise_map.mpr ?_)
    exact h.indexed.pairwise_index.filter _
  have hright : (p.derivations.map Prod.fst).Nodup :=
    List.Pairwise.imp Nat.ne_of_lt (List.pairwise_map.mpr h.ascending)
  have hperm : ((p.catalog.vars.filter p.derives).map (·.index)).Perm
      (p.derivations.map Prod.fst) := by
    refine (List.perm_ext_iff_of_nodup hleft hright).mpr fun i => ?_
    simp only [List.mem_map, List.mem_filter]
    constructor
    · rintro ⟨v, ⟨-, hv⟩, rfl⟩
      obtain ⟨d, hd⟩ := derives_iff.mp hv
      exact ⟨(v.index, d), hd, rfl⟩
    · rintro ⟨y, hy, rfl⟩
      obtain ⟨v, hv, -⟩ := h.derived y hy
      have hindex := h.indexed y.1 v hv
      exact ⟨v, ⟨List.mem_of_getElem? hv, derives_iff.mpr ⟨y.2, hindex ▸ hy⟩⟩, hindex⟩
  simpa using hperm.length_eq

theorem isConstant_eq_false (h : IsLaidOut given p) {v : Variable} (hv : v ∈ p.catalog.vars)
    (hderives : p.derives v) : v.isConstant = false := by
  obtain ⟨d, hd⟩ := derives_iff.mp hderives
  obtain ⟨w, hw, hconstant, -⟩ := h.derived _ hd
  rw [h.indexed.var?_index hv] at hw
  cases hw
  exact hconstant

/-- A raw sample has a slot for each variable that takes one from it. -/
theorem length_observed (h : IsLaidOut given p) : p.observed.length = p.observedCount := by
  have hderived : (p.catalog.vars.filter fun v => p.derives v && !v.isConstant).length =
      p.derivations.length := by
    rw [← h.length_filter_derives]
    refine congrArg List.length (List.filter_congr fun v hv => ?_)
    cases hderives : p.derives v with
    | false => rfl
    | true => rw [h.isConstant_eq_false hv hderives]; rfl
  have hobserved : p.observed =
      p.catalog.vars.filter fun v => !p.derives v && !v.isConstant :=
    List.filter_congr fun v _ => Bool.and_comm _ _
  have hall := List.length_eq_length_filter_add (l := p.catalog.vars) (·.isConstant)
  have hslots := List.length_eq_length_filter_add (l := p.catalog.vars.filter (!·.isConstant))
    p.derives
  rw [List.filter_filter, List.filter_filter, hderived, ← hobserved] at hslots
  have hconstants := h.slotted.constants
  rw [List.countP_eq_length_filter] at hconstants
  rw [observedCount, Catalog.slotCount, Catalog.size, hconstants]
  omega

/-- What the raw sample and the derivations are before the first variable. -/
theorem isAt_start (h : IsLaidOut given p) {raw : Sample} (hsize : raw.size = p.observedCount) :
    Extension.IsAt p.catalog [] p.catalog.vars
      { raw := raw.slots, derivations := p.derivations } where
  indexed := h.indexed
  slotted := h.slotted
  vars := rfl
  filled := rfl
  enough := hsize.trans h.length_observed.symm
  ascending := h.ascending
  derived := by
    intro y hy
    obtain ⟨v, hv, hconstant, -, hbases⟩ := h.derived y hy
    exact ⟨v, List.mem_of_getElem? hv, h.indexed y.1 v hv, hconstant, hbases⟩

/-- A raw sample of the right size is extended to a sample of the right size, in which every
variable reads as it should. -/
theorem exists_extend (h : IsLaidOut given p) {raw : Sample} (hsize : raw.size = p.observedCount) :
    ∃ s, p.extend raw = .ok s ∧ s.size = p.catalog.slotCount ∧
      p.observed.map (p.catalog.reading? s ·.index) = raw.slots ∧
      ∀ y ∈ p.derivations, p.catalog.reading? s y.1 = p.catalog.derivedReading? y.2 s := by
  have hstart := h.isAt_start hsize
  have hend := hstart.foldl
  have hcompletes := hstart.completes_foldl
  obtain ⟨x, hx⟩ : ∃ x, p.catalog.vars.foldl (Extension.step p.catalog)
    { raw := raw.slots, derivations := p.derivations } = x := ⟨_, rfl⟩
  rw [hx] at hend hcompletes
  have hnone : x.derivations = [] := by
    refine List.eq_nil_iff_forall_not_mem.mpr fun y hy => ?_
    obtain ⟨v, hv, -⟩ := hend.derived y hy
    simp at hv
  refine ⟨⟨x.slots⟩, ?_, ?_, hcompletes.observed, hcompletes.derived⟩
  · rw [extend, if_neg (not_not_intro hsize)]
    simp [hx, hnone]
  · have hfilled := hend.filled
    rwa [List.nil_append, h.slotted.slots, List.length_range] at hfilled

end IsLaidOut

/-- **Every derived variable is computed.** Whatever was requested of a point, a raw sample is
extended just if it has as many slots as variables were observed. The sample it is extended to has
the right size. The variables that are neither constant nor derived read as the raw slots there, in
catalog order. A derived variable reads as what its recipe makes of the values of its bases, in
their joint state, and is missing if one of them is or if there is no result. Variables that are not
derived were given to the point. -/
theorem extend_after (name : String) (vars : List Declaration) (acts : List PointAction)
    (raw : Sample) :
    let p := (ofVariables name vars).after acts
    (raw.size ≠ p.observedCount →
      p.extend raw = .error (.arityMismatch p.name p.observedCount raw.size)) ∧
    (raw.size = p.observedCount → ∃ s, p.extend raw = .ok s ∧ p.checkArity s = .ok () ∧
      s.size = p.catalog.slotCount ∧
      p.observed.map (p.catalog.reading? s ·.index) = raw.slots ∧
      ∀ i d, (i, d) ∈ p.derivations → ∃ v, p.catalog.var? i = some v ∧ v.isConstant = false ∧
        v.provenance? = some d.provenance ∧
        ∀ r, p.catalog.reading? s i = some r ↔ ∃ t, p.catalog.project? d.bases s = some t ∧
          d.compute? t.values = some r.value ∧ r.state = t.state) ∧
    ∀ v ∈ p.catalog.vars, p.derives v = false →
      v.toDeclaration ∈ vars ++ acts.flatMap PointAction.offers := by
  intro p
  have h : IsLaidOut (vars ++ acts.flatMap PointAction.offers) p := by
    refine (IsLaidOut.ofVariables name (List.subset_append_left _ _)).after fun a ha d hd => ?_
    exact List.mem_append_right _ (List.mem_flatMap.mpr ⟨a, ha, hd⟩)
  refine ⟨fun hsize => if_pos hsize, fun hsize => ?_, h.given⟩
  obtain ⟨s, hextend, hslots, hobserved, hderived⟩ := h.exists_extend hsize
  refine ⟨s, hextend, if_pos hslots, hslots, hobserved, fun i d hd => ?_⟩
  obtain ⟨v, hv, hconstant, hprovenance, -⟩ := h.derived (i, d) hd
  refine ⟨v, hv, hconstant, hprovenance, fun r => ?_⟩
  rw [hderived (i, d) hd]
  exact Catalog.derivedReading?_eq_some_iff

/-- A constant, two sequences given one after the other, and their sizes. -/
theorem extend_after_sizes :
    let rules : Rules := { unary := [.size] }
    let p := (ofVariables "P" [{ name := "k", type := .int, constant := some (.int 3) },
        { name := "a", type := .intSeq }]).after [.createDerived rules {},
      .addVariables [{ name := "b", type := .intSeq }], .createDerived rules {}]
    p.observedCount = 2 ∧ ∃ s, p.extend ⟨[some ⟨.intSeq [4, 5], true⟩, none]⟩ = .ok s ∧
      p.checkArity s = .ok () ∧ p.catalog.reading? s 2 = some ⟨.int 2, true⟩ ∧
      p.catalog.reading? s 4 = none := by
  intro rules p
  have hsize : Sample.size ⟨[some ⟨.intSeq [4, 5], true⟩, none]⟩ = p.observedCount := by decide
  obtain ⟨s, hs, harity, -⟩ := (extend_after _ _ _ _).2.1 hsize
  have hvalue : p.extend ⟨[some ⟨.intSeq [4, 5], true⟩, none]⟩ =
      .ok ⟨[some ⟨.intSeq [4, 5], true⟩, some ⟨.int 2, true⟩, none, none]⟩ := by decide
  have hslots := Except.ok.inj (hs.symm.trans hvalue)
  refine ⟨hsize.symm, s, hs, harity, ?_, ?_⟩ <;> rw [hslots] <;> decide

end Extended

end Point

end LikelyInvariants
