import LikelyInvariants.Proofs.Derivation.Saturation

/-!
# Derivation ends

The passes of a run go on until one of them adds nothing (`Point.Passes`), and nothing in this
description bounds their number. It is bounded all the same. A pass derives only from variables
below the greatest depth, and from at least one of those that the pass before it added. So the
least depth of the variables that a pass starts from grows with every pass, although the pass may
combine them with shallow variables from before, and although the variables that a run starts from
may be of different depths.

It follows that a run has at most one pass more than the greatest depth, and so it is never cut off
by the fuel that `Point.deriveFrom` is given (`Point.createDerived_passes`).
-/

namespace LikelyInvariants

open Update

/-! ## Depth -/

section Depth

variable {c : Catalog} {rules : Rules} {s : DeriveSettings} {m : Nat} {d : Derivation}

/-- A derived variable is deeper by one than the deepest of its bases, all of which are in the
catalog. -/
def Catalog.IsOneDeeper (c : Catalog) (v : Variable) : Prop :=
  ∃ o, v.origin = some o ∧ (∀ b ∈ o.bases, ∃ w, c.var? b = some w ∧ w.depth < v.depth) ∧
    ∃ b ∈ o.bases, ∃ w, c.var? b = some w ∧ v.depth = w.depth + 1

/-- Variables that are added do not change the depth of others. -/
theorem Catalog.IsOneDeeper.mono {c' : Catalog} {v : Variable} (h : c.IsOneDeeper v)
    (hkept : ∀ i w, c.var? i = some w → c'.var? i = some w) : c'.IsOneDeeper v := by
  obtain ⟨o, ho, hall, b, hb, w, hw, hdepth⟩ := h
  refine ⟨o, ho, fun b hb => ?_, b, hb, w, hkept b w hw, hdepth⟩
  obtain ⟨w, hw, hlt⟩ := hall b hb
  exact ⟨w, hkept b w hw, hlt⟩

/-- All bases of what a pass derives may be derived from. -/
theorem Catalog.worth_of_mem_derivePass (h : c.IsIndexed)
    (hd : d ∈ c.derivePass rules s m c.size) {b : Nat} (hb : b ∈ d.bases) :
    ∃ v, c.var? b = some v ∧ s.isWorth v := by
  unfold derivePass at hd
  rcases List.mem_append.mp (List.mem_filter.mp hd).1 with hd | hd
  · obtain ⟨v, hv, hd⟩ := List.mem_flatMap.mp hd
    obtain ⟨r, -, hd⟩ := List.mem_flatMap.mp hd
    obtain ⟨hvars, hworth, -⟩ := (mem_worthIn h).mp hv
    rw [bases_unary hd, List.mem_singleton] at hb
    exact ⟨v, hb ▸ h.var?_index hvars, hworth⟩
  · obtain ⟨⟨v, w⟩, hpair, hd⟩ := List.mem_flatMap.mp hd
    obtain ⟨r, -, hd⟩ := List.mem_flatMap.mp hd
    obtain ⟨⟨hvars, hworth⟩, ⟨hvars', hworth'⟩, -⟩ := (mem_pairsIn h).mp hpair
    have hb : b = v.index ∨ b = w.index := by simpa using (bases_binary hd).mem_iff.mp hb
    rcases hb with rfl | rfl
    · exact ⟨v, h.var?_index hvars, hworth⟩
    · exact ⟨w, h.var?_index hvars', hworth'⟩

theorem Catalog.exists_foldl_max_depth (vars : List Variable) (n : Nat) :
    vars.foldl (fun n v => max n v.depth) n = n ∨
      ∃ v ∈ vars, vars.foldl (fun n v => max n v.depth) n = v.depth := by
  induction vars generalizing n with
  | nil => exact .inl rfl
  | cons w vars ih =>
    rcases ih (max n w.depth) with h | ⟨v, hv, h⟩
    · rcases Nat.le_total w.depth n with hle | hle
      · exact .inl (h.trans (Nat.max_eq_left hle))
      · exact .inr ⟨w, List.mem_cons_self, h.trans (Nat.max_eq_right hle)⟩
    · exact .inr ⟨v, List.mem_cons_of_mem w hv, h⟩

/-- What a pass derives is deeper by one than the deepest of its bases. -/
theorem Catalog.isOneDeeper_of_mem_derivePass (h : c.IsIndexed)
    (hd : d ∈ c.derivePass rules s m c.size) {v : Variable}
    (hv : v.toDeclaration = d.declaration c) : c.IsOneDeeper v ∧ v.depth ≤ s.maxDepth := by
  have hworth := fun b hb => worth_of_mem_derivePass (b := b) h hd hb
  obtain ⟨⟨w, hw, -, -, hbase⟩, -⟩ := of_mem_derivePass h hd
  have hdepth : v.depth = 1 + (d.bases.filterMap c.var?).foldl (fun n v => max n v.depth) 0 := by
    rw [hv]
    rfl
  -- the deepest base, which is the first one if none is deeper than zero
  obtain ⟨x, hx, hdeepest⟩ : ∃ x ∈ d.bases.filterMap c.var?,
      (d.bases.filterMap c.var?).foldl (fun n v => max n v.depth) 0 = x.depth := by
    rcases exists_foldl_max_depth (d.bases.filterMap c.var?) 0 with hzero | hmax
    · have hmem : w ∈ d.bases.filterMap c.var? :=
        List.mem_filterMap.mpr ⟨w.index, hbase, h.var?_index hw⟩
      have hle := (le_foldl_max_depth (d.bases.filterMap c.var?) 0).2 w hmem
      exact ⟨w, hmem, by omega⟩
    · exact hmax
  obtain ⟨b, hb, hbx⟩ := List.mem_filterMap.mp hx
  refine ⟨⟨_, by rw [hv]; rfl, fun b' hb' => ?_, b, hb, x, hbx, by omega⟩, ?_⟩
  · obtain ⟨y, hy, -⟩ := hworth b' hb'
    have hle := (le_foldl_max_depth (d.bases.filterMap c.var?) 0).2 y
      (List.mem_filterMap.mpr ⟨b', hb', hy⟩)
    exact ⟨y, hy, by omega⟩
  · obtain ⟨y, hy, hshallow⟩ := hworth b hb
    obtain rfl : x = y := Option.some.inj (hbx.symm.trans hy)
    have hlt : x.depth < s.maxDepth := by simpa [DeriveSettings.isWorth] using hshallow
    omega

end Depth

namespace Point

/-! ## One pass -/

section OnePass

variable {rules : Rules} {s : DeriveSettings} {p : Point} {lower j : Nat} {v : Variable}

/-- The variables of some derivations as they are in the catalog that they were added to. -/
def added (p : Point) (ds : List Derivation) : List Variable :=
  (p.addDerived ds).catalog.vars.drop p.catalog.size

/-- What a pass over the variables from a position on finds. -/
def found (rules : Rules) (s : DeriveSettings) (lower : Nat) (p : Point) : List Derivation :=
  p.catalog.derivePass rules s lower p.catalog.size

theorem vars_addDerived (p : Point) (ds : List Derivation) :
    (p.addDerived ds).catalog.vars = p.catalog.vars ++ p.added ds ∧
      (p.added ds).map Variable.toDeclaration = ds.map (·.declaration p.catalog) ∧
      (p.added ds).map Variable.index = List.range' p.catalog.size ds.length := by
  obtain ⟨new, hvars, hdeclared, hindex⟩ :=
    p.catalog.vars_append (ds.map (·.declaration p.catalog))
  have hadded : p.added ds = new := by
    unfold added addDerived
    rw [hvars]
    exact List.drop_left
  rw [List.length_map] at hindex
  exact ⟨hadded ▸ hvars, hadded ▸ hdeclared, hadded ▸ hindex⟩

/-- What a pass adds is within the greatest depth, and deeper than what the pass starts from. -/
theorem depth_of_mem_added (hindexed : p.catalog.IsIndexed)
    (hdepth : ∀ v ∈ p.catalog.vars, lower ≤ v.index → j ≤ v.depth)
    (hv : v ∈ p.added (p.found rules s lower)) :
    j < v.depth ∧ v.depth ≤ s.maxDepth ∧ p.catalog.IsOneDeeper v := by
  obtain ⟨hvars, hdeclared, hindex⟩ := p.vars_addDerived (p.found rules s lower)
  have hrange : v.index ∈ List.range' p.catalog.size _ := hindex ▸ List.mem_map_of_mem hv
  have hmem : v.toDeclaration ∈ (p.found rules s lower).map (·.declaration p.catalog) :=
    hdeclared ▸ List.mem_map_of_mem hv
  obtain ⟨d, hd, heq⟩ := List.mem_map.mp hmem
  obtain ⟨honeDeeper, hbounded⟩ := Catalog.isOneDeeper_of_mem_derivePass hindexed hd heq.symm
  have hgrown : v ∈ (p.addDerived (p.found rules s lower)).catalog.vars :=
    hvars ▸ List.mem_append_right _ hv
  have hdeeper := lt_depth_addDerived hindexed hdepth hgrown (List.mem_range'_1.mp hrange).1
  exact ⟨hdeeper, hbounded, honeDeeper⟩

end OnePass

/-! ## A run of passes -/

section Run

variable {rules : Rules} {s : DeriveSettings} {p q : Point} {lower j : Nat}
  {passes : List (List Variable)} {r : Except Error Unit}

/-- Passes from a position on until there is nothing to derive from, with the variables that each of
them adds. Where an edge stands in the way of what a pass finds, the run fails. -/
inductive Passes (rules : Rules) (s : DeriveSettings) :
    Nat → Point → List (List Variable) → Except Error Unit → Point → Prop
  | done {lower : Nat} {p : Point} (h : p.catalog.size ≤ lower) : Passes rules s lower p [] (.ok ()) p
  | refused {lower : Nat} {p : Point} {e : Error} (h : lower < p.catalog.size)
      (hfound : p.found rules s lower ≠ []) (hedges : p.checkNoEdges = .error e) :
      Passes rules s lower p [[]] (.error e) p
  | pass {lower : Nat} {p q : Point} {passes : List (List Variable)} {r : Except Error Unit}
      (h : lower < p.catalog.size) (hmay : p.found rules s lower = [] ∨ p.checkNoEdges = .ok ())
      (hrest : Passes rules s p.catalog.size (p.addDerived (p.found rules s lower)) passes r q) :
      Passes rules s lower p (p.added (p.found rules s lower) :: passes) r q

/-- A pass over the variables from a position on goes on with what it finds. -/
theorem exec_deriveFrom_found (fuel : Nat) (h : lower < p.catalog.size) :
    let next := p.addDerived (p.found rules s lower)
    (deriveFrom rules s (fuel + 1) lower p.catalog.size).exec p =
      match if (p.found rules s lower).isEmpty then .ok () else p.checkNoEdges with
      | .ok _ => (deriveFrom rules s fuel p.catalog.size next.catalog.size).exec next
      | .error e => (.error e, p) := exec_deriveFrom_succ rules s fuel h

/-- Where a pass finds nothing, the point stays as it is. -/
theorem addDerived_nil (p : Point) : p.addDerived [] = p := by simp [addDerived]

/-- The variables that the next pass starts from are deeper by one. -/
theorem le_depth_addDerived (hindexed : p.catalog.IsIndexed)
    (hdepth : ∀ v ∈ p.catalog.vars, lower ≤ v.index → j ≤ v.depth) :
    ∀ v ∈ (p.addDerived (p.found rules s lower)).catalog.vars, p.catalog.size ≤ v.index →
      j + 1 ≤ v.depth :=
  fun _ hv hindex => lt_depth_addDerived hindexed hdepth hv hindex

/-- A pass that finds something has not reached the greatest depth. -/
theorem lt_maxDepth_of_found (hindexed : p.catalog.IsIndexed)
    (hdepth : ∀ v ∈ p.catalog.vars, lower ≤ v.index → j ≤ v.depth)
    (hfound : p.found rules s lower ≠ []) : j < s.maxDepth := by
  have hadded : p.added (p.found rules s lower) ≠ [] := by
    intro hnil
    have hdeclared := (p.vars_addDerived (p.found rules s lower)).2.1
    rw [hnil] at hdeclared
    exact hfound (List.map_eq_nil_iff.mp hdeclared.symm)
  obtain ⟨v, hv⟩ := List.exists_mem_of_ne_nil _ hadded
  obtain ⟨hdeeper, hbounded, -⟩ := depth_of_mem_added hindexed hdepth hv
  exact Nat.lt_of_lt_of_le hdeeper hbounded

namespace Passes

/-- A run that ends within the fuel is what comes of it, and it ends at the end of the catalog. -/
theorem exec_deriveFrom (h : Passes rules s lower p passes r q) {fuel : Nat}
    (hfuel : passes.length ≤ fuel) :
    (deriveFrom rules s fuel lower p.catalog.size).exec p = (r.map fun _ => q.catalog.size, q) := by
  induction h generalizing fuel with
  | done h => exact deriveFrom_done rules s fuel (Nat.not_lt_of_le h)
  | @refused lower p e h hfound hedges =>
    obtain ⟨fuel, rfl⟩ := Nat.exists_eq_add_of_le' hfuel
    rw [List.length_singleton, exec_deriveFrom_found fuel h,
      if_neg (by simpa using hfound), hedges]
    rfl
  | @pass lower p q passes r h hmay hrest ih =>
    obtain ⟨fuel, rfl⟩ := Nat.exists_eq_add_of_le' (Nat.le_trans (Nat.le_add_left 1 _) hfuel)
    have hfree : (if (p.found rules s lower).isEmpty then .ok () else p.checkNoEdges) =
        Except.ok () := by
      rcases hmay with hnil | hedges
      · rw [if_pos (List.isEmpty_iff.mpr hnil)]
      · rw [hedges, ite_self]
    rw [exec_deriveFrom_found fuel h, hfree]
    exact ih (by simpa using hfuel)

/-- The variables are added at the end. -/
theorem vars (h : Passes rules s lower p passes r q) :
    q.catalog.vars = p.catalog.vars ++ passes.flatten := by
  induction h with
  | done | refused => simp
  | pass _ _ _ ih =>
    rw [ih, (vars_addDerived _ _).1, List.append_assoc]
    rfl

theorem var? (h : Passes rules s lower p passes r q) {i : Nat} {v : Variable}
    (hv : p.catalog.var? i = some v) : q.catalog.var? i = some v := by
  have hlt := (List.getElem?_eq_some_iff.mp hv).1
  unfold Catalog.var? at hv ⊢
  rw [h.vars, List.getElem?_append_left hlt, hv]

/-- A run that fails leaves the point as it is: its edges are the same at every pass. -/
theorem of_error {e : Error} (h : Passes rules s lower p passes (.error e) q) :
    p.checkNoEdges = .error e ∧ q = p := by
  generalize hr : Except.error e = r at h
  induction h with
  | done => cases hr
  | refused _ _ hedges =>
    cases hr
    exact ⟨hedges, rfl⟩
  | pass _ hmay _ ih =>
    obtain ⟨hedges, rfl⟩ := ih hr
    rcases hmay with hnil | hfree
    · rw [hnil, addDerived_nil] at hedges ⊢
      exact ⟨hedges, rfl⟩
    · cases (hr.trans hedges.symm).trans hfree

/-- At the end of the catalog there is no pass. -/
theorem eq_nil (h : Passes rules s lower p passes r q) (hend : p.catalog.size ≤ lower) :
    passes = [] := by
  cases h with
  | done => rfl
  | refused h | pass h => omega

/-- The variables that the `k`-th pass adds are at depth `k` or more, and at no greater depth than
is allowed. -/
theorem depth (h : Passes rules s lower p passes r q) (hindexed : p.catalog.IsIndexed)
    (hdepth : ∀ v ∈ p.catalog.vars, lower ≤ v.index → j ≤ v.depth) {k : Nat} {vs : List Variable}
    (hvs : passes[k]? = some vs) {v : Variable} (hv : v ∈ vs) :
    j + k + 1 ≤ v.depth ∧ v.depth ≤ s.maxDepth ∧ q.catalog.IsOneDeeper v := by
  induction h generalizing j k with
  | done => cases hvs
  | refused =>
    obtain rfl : vs = [] := List.mem_singleton.mp (List.mem_of_getElem? hvs)
    cases hv
  | pass _ _ hrest ih =>
    cases k with
    | zero =>
      cases hvs
      obtain ⟨hdeeper, hbounded, honeDeeper⟩ := depth_of_mem_added hindexed hdepth hv
      exact ⟨hdeeper, hbounded, honeDeeper.mono fun i w hw => hrest.var? (Catalog.var?_append hw _)⟩
    | succ k =>
      have hlater := ih (hindexed.append _) (le_depth_addDerived hindexed hdepth) hvs
      exact ⟨by omega, hlater.2⟩

/-- The passes of a run are no more than the levels of depth that are left. -/
theorem length_le (h : Passes rules s lower p passes r q) (hindexed : p.catalog.IsIndexed)
    (hdepth : ∀ v ∈ p.catalog.vars, lower ≤ v.index → j ≤ v.depth) (hj : j ≤ s.maxDepth) :
    passes.length ≤ s.maxDepth + 1 - j := by
  induction h generalizing j with
  | done => exact Nat.zero_le _
  | refused =>
    rw [List.length_singleton]
    omega
  | @pass lower p _ _ _ _ _ hrest ih =>
    rw [List.length_cons]
    by_cases hnil : p.found rules s lower = []
    · rw [hnil, addDerived_nil] at hrest
      rw [hrest.eq_nil (Nat.le_refl _), List.length_nil]
      omega
    · have hlt := lt_maxDepth_of_found hindexed hdepth hnil
      have hlater := ih (hindexed.append _) (le_depth_addDerived hindexed hdepth) hlt
      omega

end Passes

/-- Every run ends, whatever the depths of the variables that it starts from. -/
theorem exists_passes (hindexed : p.catalog.IsIndexed)
    (hdepth : ∀ v ∈ p.catalog.vars, lower ≤ v.index → j ≤ v.depth) :
    ∃ passes r q, Passes rules s lower p passes r q := by
  -- each pass that finds something leaves one level less
  induction hleft : s.maxDepth - j using Nat.strongRecOn generalizing p lower j with
  | ind n ih =>
    by_cases hend : p.catalog.size ≤ lower
    · exact ⟨_, _, _, .done hend⟩
    · have hlt := Nat.lt_of_not_le hend
      by_cases hnil : p.found rules s lower = []
      · have hrest : Passes rules s p.catalog.size (p.addDerived (p.found rules s lower)) []
            (.ok ()) p := by
          rw [hnil, addDerived_nil]
          exact .done (Nat.le_refl _)
        exact ⟨_, _, _, .pass hlt (.inl hnil) hrest⟩
      · cases hedges : p.checkNoEdges with
        | error e => exact ⟨_, _, _, .refused hlt hnil hedges⟩
        | ok u =>
          have hlevel := lt_maxDepth_of_found hindexed hdepth hnil
          obtain ⟨passes, r, q, hrest⟩ := ih (s.maxDepth - (j + 1)) (by omega)
            (hindexed.append _) (le_depth_addDerived hindexed hdepth) rfl
          exact ⟨_, r, q, .pass hlt (.inr hedges) hrest⟩

end Run

/-! ## Requests -/

section Request

/-- What the passes of a run have come to. -/
structure Deepens (s : DeriveSettings) (p q : Point) (passes : List (List Variable)) : Prop where
  few : passes.length ≤ s.maxDepth + 1
  /-- They have added variables at the end of the catalog. -/
  vars : q.catalog.vars = p.catalog.vars ++ passes.flatten
  /-- The first pass has number zero, and adds variables at depth one or more. -/
  deep : ∀ k vs, passes[k]? = some vs → ∀ v ∈ vs, k + 1 ≤ v.depth
  bounded : ∀ vs ∈ passes, ∀ v ∈ vs, v.depth ≤ s.maxDepth
  oneDeeper : ∀ vs ∈ passes, ∀ v ∈ vs, q.catalog.IsOneDeeper v

theorem Passes.deepens {rules : Rules} {s : DeriveSettings} {p q : Point} {lower : Nat}
    {passes : List (List Variable)} {r : Except Error Unit}
    (h : Passes rules s lower p passes r q) (hindexed : p.catalog.IsIndexed) :
    Deepens s p q passes := by
  have hdepth : ∀ v ∈ p.catalog.vars, lower ≤ v.index → 0 ≤ v.depth := fun v _ _ => v.depth.zero_le
  refine ⟨h.length_le hindexed hdepth (Nat.zero_le _), h.vars, fun k vs hvs v hv => ?_,
    fun vs hvs v hv => ?_, fun vs hvs v hv => ?_⟩
  · have hdeep := (h.depth hindexed hdepth hvs hv).1
    omega
  · obtain ⟨k, hk⟩ := List.getElem?_of_mem hvs
    exact (h.depth hindexed hdepth hk hv).2.1
  · obtain ⟨k, hk⟩ := List.getElem?_of_mem hvs
    exact (h.depth hindexed hdepth hk hv).2.2

/-- **Derivation ends within its depth.** Passes that go on until there is nothing to derive from end
at every point, whatever the rules, the names that are left out, the greatest depth and the variable
from which they start. There is at most one more of them than the greatest depth; the variables that
the `k`-th adds are at depth `k` or more and at no greater depth than is allowed, and each is one
deeper than the deepest variable it is derived from. A request for derived variables does what these
passes do. It succeeds with all variables derived from, or it fails without a change. -/
theorem createDerived_passes (rules : Rules) (s : DeriveSettings) {p : Point}
    (hindexed : p.catalog.IsIndexed) :
    (∃ passes r q, Passes rules s p.derivedThrough p passes r q) ∧
      ∀ passes r q, Passes rules s p.derivedThrough p passes r q →
        Deepens s p q passes ∧
          (createDerived rules s).exec p =
            match p.checkGrows, r with
            | .ok _, .ok _ =>
              (.ok passes.flatten.length, { q with derivedThrough := q.catalog.size })
            | .ok _, .error e => (.error e, p)
            | .error e, _ => (.error e, p) := by
  refine ⟨exists_passes hindexed fun v _ _ => v.depth.zero_le, fun passes r q h => ?_⟩
  have hdeepens := h.deepens hindexed
  refine ⟨hdeepens, ?_⟩
  simp only [createDerived, exec_bind, exec_get, exec_lift]
  cases hgrows : p.checkGrows with
  | error e => rfl
  | ok u =>
    simp only [h.exec_deriveFrom hdeepens.few]
    cases r with
    | error e =>
      obtain ⟨-, rfl⟩ := h.of_error
      rfl
    | ok u =>
      have hsize : q.catalog.size - p.catalog.size = passes.flatten.length := by
        unfold Catalog.size
        rw [h.vars, List.length_append]
        omega
      simp [hsize]

/-- A sequence, its size, which is derived already, and a number from outside: the first pass starts
from variables of different depths. -/
theorem createDerived_passes_mixed :
    let xs : Declaration := { name := "xs", type := .intSeq }
    let size : Declaration :=
      { name := "size(xs)", type := .int, origin := some ⟨.unary .size, [0], 1⟩ }
    let i : Declaration := { name := "i", type := .int }
    let p : Point := { ofVariables "P" [xs, size, i] with derivedThrough := 1 }
    ∃ passes r q, Passes .standard {} 1 p passes r q ∧ Deepens {} p q passes ∧
      ((createDerived .standard {}).exec p).1 = .ok 7 ∧ passes.flatten.length = 7 := by
  intro xs size i p
  obtain ⟨⟨passes, r, q, h⟩, hall⟩ :=
    createDerived_passes .standard {} (p := p) (Catalog.isIndexed_ofList [xs, size, i])
  obtain ⟨hdeepens, hexec⟩ := hall passes r q h
  have hcount : ((createDerived .standard {}).exec p).1 = .ok 7 := by
    unfold p xs size i
    decide +kernel
  refine ⟨passes, r, q, h, hdeepens, hcount, ?_⟩
  rw [hexec, show p.checkGrows = .ok () from rfl] at hcount
  cases r with
  | error e => cases hcount
  | ok u => exact Except.ok.inj hcount

end Request

end Point

end LikelyInvariants
