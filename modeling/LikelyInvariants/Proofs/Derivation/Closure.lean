import Mathlib.Data.List.Nodup
import LikelyInvariants.Proofs.Point.Steps

/-!
# Derivation in passes and derivation at once

The variables of a point can be derived at once: apply every rule for one variable to every variable
that may be derived from, and every rule for two variables to every pair of those
(`Rules.closure`). The variables that are derived count as variables here, so the closure is an
equation that the finished catalog satisfies, and no way to compute it.

A pass over the variables from `m` on makes up the difference between the closure of the variables
before `m` and the closure of all variables (`Catalog.perm_closure_derivePass`): a pair belongs to
the first pass that reaches its second member. So nothing is missed and nothing is derived twice,
however the passes divide the catalog and whatever is declared between two runs of passes.

Each pass derives from at least one variable of the pass before. So what it derives is deeper by
one, and a run of passes is over when the greatest depth is reached.
-/

namespace LikelyInvariants

open Update

/-! ## The closure -/

section Closure

/-- What the rules derive from some variables and some pairs of variables. -/
def Rules.deriveFrom (rules : Rules) (s : DeriveSettings) (ones : List Variable)
    (twos : List (Variable × Variable)) : List Derivation :=
  (ones.flatMap (fun v => rules.unary.flatMap (·.derive v)) ++
    twos.flatMap fun (v, w) => rules.binary.flatMap (·.derive v w)).filter s.keeps

/-- The pairs of variables, in the order of the catalog. -/
def ascendingPairs (vars : List Variable) : List (Variable × Variable) :=
  (vars.product vars).filter fun (v, w) => v.index < w.index

/-- What the rules derive from some variables, each rule being applied once to every variable and
to every pair of variables that may be derived from. -/
def Rules.closure (rules : Rules) (s : DeriveSettings) (vars : List Variable) : List Derivation :=
  rules.deriveFrom s (vars.filter s.isWorth) (ascendingPairs (vars.filter s.isWorth))

variable {rules : Rules} {s : DeriveSettings}

theorem Rules.perm_deriveFrom {ones ones' : List Variable} {twos twos' : List (Variable × Variable)}
    (hones : ones.Perm ones') (htwos : twos.Perm twos') :
    (rules.deriveFrom s ones twos).Perm (rules.deriveFrom s ones' twos') :=
  ((hones.flatMap_right _).append (htwos.flatMap_right _)).filter _

theorem Rules.perm_deriveFrom_append (ones ones' : List Variable)
    (twos twos' : List (Variable × Variable)) :
    (rules.deriveFrom s (ones ++ ones') (twos ++ twos')).Perm
      (rules.deriveFrom s ones twos ++ rules.deriveFrom s ones' twos') := by
  unfold deriveFrom
  rw [← List.filter_append, List.flatMap_append, List.flatMap_append, List.append_assoc,
    List.append_assoc]
  exact ((List.perm_append_comm_assoc _ _ _).append_left _).filter _

end Closure

/-! ## One pass -/

namespace Catalog

section Pass

variable {c : Catalog} {rules : Rules} {s : DeriveSettings} {m : Nat}

/-- The variables before a position. -/
def before (c : Catalog) (m : Nat) : List Variable := c.vars.filter (·.index < m)

theorem IsIndexed.var?_index (h : c.IsIndexed) {v : Variable} (hv : v ∈ c.vars) :
    c.var? v.index = some v := by
  obtain ⟨i, hi⟩ := List.getElem?_of_mem hv
  have hindex : v.index = i := h i v hi
  rw [hindex]
  exact hi

theorem IsIndexed.index_lt (h : c.IsIndexed) {v : Variable} (hv : v ∈ c.vars) :
    v.index < c.size := (List.getElem?_eq_some_iff.mp (h.var?_index hv)).1

theorem IsIndexed.before_size (h : c.IsIndexed) : c.before c.size = c.vars := by
  refine List.filter_eq_self.mpr fun v hv => ?_
  simpa using h.index_lt hv

theorem mem_worthIn (h : c.IsIndexed) {first limit : Nat} {v : Variable} :
    v ∈ c.worthIn s first limit ↔
      v ∈ c.vars ∧ s.isWorth v ∧ first ≤ v.index ∧ v.index < limit := by
  unfold worthIn
  rw [List.mem_filter, List.mem_filterMap]
  constructor
  · rintro ⟨⟨i, hi, hv⟩, hworth⟩
    have hindex : v.index = i := h i v hv
    have hrange := mem_positions.mp hi
    exact ⟨List.mem_of_getElem? hv, hworth, by omega, by omega⟩
  · rintro ⟨hv, hworth, hfirst, hlimit⟩
    exact ⟨⟨v.index, mem_positions.mpr ⟨hfirst, hlimit⟩, h.var?_index hv⟩, hworth⟩

theorem nodup_worthIn (h : c.IsIndexed) (first limit : Nat) : (c.worthIn s first limit).Nodup := by
  refine List.Nodup.filter _ (List.Nodup.filterMap ?_ List.nodup_range')
  intro i j v hi hj
  rw [← h i v hi, ← h j v hj]

theorem nodup_vars (h : c.IsIndexed) : c.vars.Nodup := by
  refine h.pairwise_index.imp fun {v w} hlt heq => ?_
  rw [heq] at hlt
  exact Nat.lt_irrefl _ hlt

theorem nodup_bases (h : c.IsIndexed) (m : Nat) : ((c.before m).filter s.isWorth).Nodup :=
  ((nodup_vars h).filter _).filter _

theorem mem_bases {v : Variable} :
    v ∈ (c.before m).filter s.isWorth ↔ v ∈ c.vars ∧ v.index < m ∧ s.isWorth v := by
  unfold before
  rw [List.mem_filter, List.mem_filter, decide_eq_true_eq, and_assoc]

theorem mem_ascendingPairs {v w : Variable} :
    (v, w) ∈ ascendingPairs ((c.before m).filter s.isWorth) ↔
      (v ∈ c.vars ∧ s.isWorth v) ∧ (w ∈ c.vars ∧ s.isWorth w) ∧ v.index < w.index ∧
        w.index < m := by
  unfold ascendingPairs
  rw [List.mem_filter, List.pair_mem_product, mem_bases, mem_bases, decide_eq_true_eq]
  constructor
  · rintro ⟨⟨⟨hv, -, hworth⟩, hw, hlt, hworth'⟩, hpair⟩
    exact ⟨⟨hv, hworth⟩, ⟨hw, hworth'⟩, hpair, hlt⟩
  · rintro ⟨⟨hv, hworth⟩, ⟨hw, hworth'⟩, hpair, hlt⟩
    exact ⟨⟨⟨hv, by omega, hworth⟩, hw, hlt, hworth'⟩, hpair⟩

theorem mem_pairsIn (h : c.IsIndexed) {v w : Variable} :
    (v, w) ∈ c.pairsIn s m c.size ↔
      (v ∈ c.vars ∧ s.isWorth v) ∧ (w ∈ c.vars ∧ s.isWorth w) ∧ v.index < w.index ∧
        m ≤ w.index := by
  have hseconds (hv : v ∈ c.vars) : w ∈ (if m ≤ v.index ∧ v.index < c.size then
      c.worthIn s (v.index + 1) c.size else c.worthIn s (max (v.index + 1) m) c.size) ↔
        (w ∈ c.vars ∧ s.isWorth w) ∧ v.index < w.index ∧ m ≤ w.index := by
    have hlt := h.index_lt hv
    split <;> rw [mem_worthIn h] <;> constructor
    · rintro ⟨hw, hworth, hfirst, -⟩
      exact ⟨⟨hw, hworth⟩, by omega, by omega⟩
    · rintro ⟨⟨hw, hworth⟩, hpair, -⟩
      exact ⟨hw, hworth, by omega, h.index_lt hw⟩
    · rintro ⟨hw, hworth, hfirst, -⟩
      exact ⟨⟨hw, hworth⟩, by omega, by omega⟩
    · rintro ⟨⟨hw, hworth⟩, hpair, hm⟩
      exact ⟨hw, hworth, by omega, h.index_lt hw⟩
  unfold pairsIn
  simp only [List.mem_flatMap, List.mem_map, Prod.mk.injEq]
  constructor
  · rintro ⟨u, hu, x, hx, rfl, rfl⟩
    obtain ⟨hv, hworth, -⟩ := (mem_worthIn h).mp hu
    exact ⟨⟨hv, hworth⟩, (hseconds hv).mp hx⟩
  · rintro ⟨⟨hv, hworth⟩, hw⟩
    have hfirst : v ∈ c.worthIn s 0 c.size :=
      (mem_worthIn h).mpr ⟨hv, hworth, Nat.zero_le _, h.index_lt hv⟩
    exact ⟨v, hfirst, w, (hseconds hv).mpr hw, rfl, rfl⟩

theorem nodup_pairsIn (h : c.IsIndexed) (m limit : Nat) : (c.pairsIn s m limit).Nodup := by
  unfold pairsIn
  refine List.nodup_flatMap.mpr ⟨fun v _ => ?_, ?_⟩
  · refine List.Nodup.map (fun _ _ heq => (Prod.mk.inj heq).2) ?_
    split <;> exact nodup_worthIn h _ _
  · refine (nodup_worthIn h 0 c.size).imp fun hne x hx hy => ?_
    obtain ⟨_, -, rfl⟩ := List.mem_map.mp hx
    obtain ⟨_, -, heq⟩ := List.mem_map.mp hy
    exact hne (Prod.mk.inj heq).1.symm

/-- The variables from a position on make up the difference to all variables. -/
theorem perm_bases (h : c.IsIndexed) (m : Nat) : (c.vars.filter s.isWorth).Perm
    ((c.before m).filter s.isWorth ++ c.worthIn s m c.size) := by
  refine (List.perm_ext_iff_of_nodup ((nodup_vars h).filter _) ?_).mpr fun v => ?_
  · refine (nodup_bases h m).append (nodup_worthIn h _ _) fun v hv hv' => ?_
    have hlt := (mem_bases.mp hv).2.1
    have hge := ((mem_worthIn h).mp hv').2.2.1
    omega
  · rw [List.mem_append, mem_bases, mem_worthIn h, List.mem_filter]
    constructor
    · rintro ⟨hv, hworth⟩
      rcases Nat.lt_or_ge v.index m with hlt | hge
      · exact .inl ⟨hv, hlt, hworth⟩
      · exact .inr ⟨hv, hworth, hge, h.index_lt hv⟩
    · rintro (⟨hv, -, hworth⟩ | ⟨hv, hworth, -⟩)
      · exact ⟨hv, hworth⟩
      · exact ⟨hv, hworth⟩

/-- The pairs that a pass is about make up the difference to all pairs. -/
theorem perm_ascendingPairs (h : c.IsIndexed) (m : Nat) :
    (ascendingPairs (c.vars.filter s.isWorth)).Perm
      (ascendingPairs ((c.before m).filter s.isWorth) ++ c.pairsIn s m c.size) := by
  have hnodup (k : Nat) : (ascendingPairs ((c.before k).filter s.isWorth)).Nodup :=
    ((nodup_bases h k).product (nodup_bases h k)).filter _
  rw [← h.before_size]
  refine (List.perm_ext_iff_of_nodup (hnodup _) ?_).mpr fun ⟨v, w⟩ => ?_
  · refine (hnodup m).append (nodup_pairsIn h m c.size) fun ⟨v, w⟩ hx hy => ?_
    have hlt := (mem_ascendingPairs.mp hx).2.2.2
    have hge := ((mem_pairsIn h).mp hy).2.2.2
    omega
  · rw [List.mem_append, mem_ascendingPairs, mem_ascendingPairs, mem_pairsIn h]
    constructor
    · rintro ⟨hv, hw, hpair, -⟩
      rcases Nat.lt_or_ge w.index m with hlt | hge
      · exact .inl ⟨hv, hw, hpair, hlt⟩
      · exact .inr ⟨hv, hw, hpair, hge⟩
    · rintro (⟨hv, hw, hpair, -⟩ | ⟨hv, hw, hpair, -⟩) <;>
        exact ⟨hv, hw, hpair, h.index_lt hw.1⟩

/-- A pass from a position on derives what the closure of the variables before it is short of. -/
theorem perm_closure_derivePass (h : c.IsIndexed) (m : Nat) :
    (rules.closure s c.vars).Perm
      (rules.closure s (c.before m) ++ c.derivePass rules s m c.size) :=
  (Rules.perm_deriveFrom (perm_bases h m) (perm_ascendingPairs h m)).trans
    (Rules.perm_deriveFrom_append _ _ _ _)

end Pass

/-! ## Depth -/

section Depth

variable {c : Catalog} {rules : Rules} {s : DeriveSettings} {m : Nat}

theorem bases_unary {r : UnaryRule} {v : Variable} {d : Derivation} (hd : d ∈ r.derive v) :
    d.bases = [v.index] := by
  cases r <;> simp only [UnaryRule.derive] at hd <;> split at hd <;> simp at hd
  · rw [hd]
  · rcases hd with rfl | rfl <;> rfl
  · rcases hd with rfl | rfl | rfl <;> rfl

theorem bases_subscripts {a i : Variable} {d : Derivation} (hd : d ∈ subscripts a i) :
    d.bases = [a.index, i.index] := by
  unfold subscripts at hd
  split at hd
  · dsimp only at hd
    split at hd
    · split at hd <;> simp at hd
      · rw [hd]
      · rcases hd with rfl | rfl <;> rfl
    · simp at hd
  · simp at hd

theorem bases_binary {r : BinaryRule} {v w : Variable} {d : Derivation} (hd : d ∈ r.derive v w) :
    d.bases.Perm [v.index, w.index] := by
  cases r with
  | subscript =>
    simp only [BinaryRule.derive] at hd
    split at hd <;> rw [bases_subscripts hd]
    exact .swap _ _ []
  | setOps =>
    simp only [BinaryRule.derive] at hd
    split at hd <;> simp at hd
    rcases hd with rfl | rfl <;> rfl
  | concat =>
    simp only [BinaryRule.derive] at hd
    split at hd <;> simp at hd
    rw [hd]
  | join =>
    simp only [BinaryRule.derive] at hd
    split at hd <;> simp at hd
    rw [hd]

/-- What a pass derives comes from variables of the catalog, of which some is in its range. -/
theorem of_mem_derivePass (h : c.IsIndexed) {d : Derivation}
    (hd : d ∈ c.derivePass rules s m c.size) :
    (∃ v ∈ c.vars, s.isWorth v ∧ m ≤ v.index ∧ v.index ∈ d.bases) ∧ ∀ b ∈ d.bases, b < c.size := by
  unfold derivePass at hd
  rcases List.mem_append.mp (List.mem_filter.mp hd).1 with hd | hd
  · obtain ⟨v, hv, hd⟩ := List.mem_flatMap.mp hd
    obtain ⟨r, -, hd⟩ := List.mem_flatMap.mp hd
    obtain ⟨hvars, hworth, hm, hlt⟩ := (mem_worthIn h).mp hv
    rw [bases_unary hd]
    exact ⟨⟨v, hvars, hworth, hm, List.mem_singleton_self _⟩, by simpa using hlt⟩
  · obtain ⟨⟨v, w⟩, hpair, hd⟩ := List.mem_flatMap.mp hd
    obtain ⟨r, -, hd⟩ := List.mem_flatMap.mp hd
    obtain ⟨⟨hvars, -⟩, ⟨hvars', hworth⟩, -, hm⟩ := (mem_pairsIn h).mp hpair
    have hbases := bases_binary hd
    refine ⟨⟨w, hvars', hworth, hm, hbases.mem_iff.mpr (by simp)⟩, fun b hb => ?_⟩
    have hb : b = v.index ∨ b = w.index := by simpa using hbases.mem_iff.mp hb
    rcases hb with rfl | rfl
    · exact h.index_lt hvars
    · exact h.index_lt hvars'

theorem le_foldl_max_depth (vars : List Variable) (n : Nat) :
    n ≤ vars.foldl (fun n v => max n v.depth) n ∧
      ∀ v ∈ vars, v.depth ≤ vars.foldl (fun n v => max n v.depth) n := by
  induction vars generalizing n with
  | nil => exact ⟨Nat.le_refl n, List.forall_mem_nil _⟩
  | cons w vars ih =>
    obtain ⟨hstart, hmem⟩ := ih (max n w.depth)
    refine ⟨Nat.le_trans (Nat.le_max_left _ _) hstart, fun v hv => ?_⟩
    rcases List.mem_cons.mp hv with rfl | hv
    · exact Nat.le_trans (Nat.le_max_right _ _) hstart
    · exact hmem v hv

/-- A derived variable is deeper than the variables it is derived from. -/
theorem depth_lt_declaration (h : c.IsIndexed) {v : Variable} (hv : v ∈ c.vars) {d : Derivation}
    (hbase : v.index ∈ d.bases) : v.depth < (d.declaration c).depth := by
  have hmem : v ∈ d.bases.filterMap c.var? :=
    List.mem_filterMap.mpr ⟨v.index, hbase, h.var?_index hv⟩
  have hle := (le_foldl_max_depth (d.bases.filterMap c.var?) 0).2 v hmem
  show v.depth < 1 + _
  omega

/-- A pass over variables that are all too deep derives nothing. -/
theorem derivePass_eq_nil (h : c.IsIndexed)
    (hdeep : ∀ v ∈ c.vars, m ≤ v.index → s.maxDepth ≤ v.depth) :
    c.derivePass rules s m c.size = [] := by
  refine List.eq_nil_iff_forall_not_mem.mpr fun d hd => ?_
  obtain ⟨⟨v, hv, hworth, hm, -⟩, -⟩ := of_mem_derivePass h hd
  have hdepth := hdeep v hv hm
  have hshallow : v.depth < s.maxDepth := by simpa [DeriveSettings.isWorth] using hworth
  omega

end Depth

/-! ## Growth of a catalog -/

section Append

theorem before_append {c : Catalog} {k : Nat} (hk : k ≤ c.size) (ds : List Declaration) :
    (c.append ds).before k = c.before k := by
  obtain ⟨new, hvars, -, hindex⟩ := c.vars_append ds
  have hnone : new.filter (·.index < k) = [] := by
    refine List.filter_eq_nil_iff.mpr fun v hv => ?_
    have hmem : v.index ∈ List.range' c.size ds.length := hindex ▸ List.mem_map_of_mem hv
    have hrange := List.mem_range'_1.mp hmem
    rw [decide_eq_true_eq]
    omega
  rw [before, hvars, List.filter_append, hnone, List.append_nil, before]

end Append

end Catalog

end LikelyInvariants
