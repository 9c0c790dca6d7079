import LikelyInvariants.Proofs.Invariant.Meaning
import LikelyInvariants.Proofs.Keys
import LikelyInvariants.Proofs.Partition
import LikelyInvariants.Proofs.Redundancy.Equation

/-!
# Equalities as classes of variables

The equalities that a point has found are replaced by one formula for each class of variables that
they make equal. The classes are the connected components with two members or more
(`EqualityClass.isFolding_ofPairs`), so whatever the values of the variables are, the formulas of the
classes are true together if and only if the equalities are (`Context.folds_equalities`).

A formula speaks of names, and nothing keeps two variables of a point from having the same one. So
the values must be values of the names (`Catalog.exists_agree_iff`), which all values are where no
name occurs twice. An equality between variables of one name is folded into a formula that is always
true.

In the forest that the classes come from nothing stands under a greater position (`IsHeaped`): roots
are united under the smaller one, and climbing moves things to what stands above them already. So
the root above a variable is the first variable of its class.
-/

namespace LikelyInvariants

/-! ## The smallest position above -/

namespace Partition.Forest

variable {f : Forest Nat}

/-- What stands above a position is not greater. -/
def IsHeaped (f : Forest Nat) : Prop := ∀ a, f.parent a ≤ a

theorem IsHeaped.hang (h : f.IsHeaped) {a under : Nat} (hle : under ≤ a) :
    (f.hang a under).IsHeaped := by
  intro b
  rw [parent_hang]
  split
  · next hsame => exact hsame ▸ hle
  · exact h b

/-- Wherever climbing ends, it ends at a position that is not greater. -/
theorem IsHeaped.climb (h : f.IsHeaped) (steps a : Nat) :
    (f.climb steps a).1 ≤ a ∧ (f.climb steps a).2.IsHeaped := by
  induction steps generalizing a with
  | zero => exact ⟨Nat.le_refl a, h⟩
  | succ steps ih =>
    unfold Forest.climb
    split
    · exact ⟨Nat.le_refl a, h⟩
    · obtain ⟨hroot, hheaped⟩ := ih (f.parent a)
      have hle : (f.climb steps (f.parent a)).1 ≤ a := Nat.le_trans hroot (h a)
      exact ⟨hle, hheaped.hang hle⟩

theorem IsHeaped.find (h : f.IsHeaped) (a : Nat) : (f.find a).1 ≤ a ∧ (f.find a).2.IsHeaped :=
  h.climb f.height a

theorem IsHeaped.unite (h : f.IsHeaped) (a b : Nat) :
    (f.unite (fun r s => r < s) a b).IsHeaped := by
  have hfound := ((h.find a).2.find b).2
  unfold Forest.unite
  dsimp only
  split
  · exact hfound
  · split
    · next hlt => exact hfound.hang (Nat.le_of_lt (of_decide_eq_true hlt))
    · next hge => exact hfound.hang (Nat.le_of_not_lt fun hlt => hge (decide_eq_true hlt))

theorem isHeaped_ofPairs (pairs : List (Nat × Nat)) :
    (ofPairs (fun r s => r < s) pairs).IsHeaped := by
  have hfold (f : Forest Nat) (h : f.IsHeaped) :
      (pairs.foldl (fun f x => f.unite (fun r s => r < s) x.1 x.2) f).IsHeaped := by
    induction pairs generalizing f with
    | nil => exact h
    | cons x pairs ih => exact ih _ (h.unite x.1 x.2)
  exact hfold {} fun a => Nat.le_refl a

end Partition.Forest

/-! ## The classes -/

namespace EqualityClass

open LikelyInvariants.Partition

variable {pairs : List (Nat × Nat)} {classes : List EqualityClass} {c : EqualityClass} {i j : Nat}

/-- The classes are the components of a graph that have two members or more, in the order of their
smallest members. -/
structure IsFolding (pairs : List (Nat × Nat)) (classes : List EqualityClass) : Prop where
  leaders : classes.Pairwise fun c d => c.leader < d.leader
  ascending : ∀ c ∈ classes, c.members.Pairwise (· < ·)
  others : ∀ c ∈ classes, c.others ≠ []
  component : ∀ c ∈ classes, ∀ i ∈ c.members, ∀ j, j ∈ c.members ↔ Linked pairs i j
  complete : ∀ i j, i ≠ j → Linked pairs i j → ∃ c ∈ classes, i ∈ c.members

theorem leader_mem (c : EqualityClass) : c.leader ∈ c.members := List.mem_cons_self

theorem leader_le (h : c.members.Pairwise (· < ·)) (hi : i ∈ c.members) : c.leader ≤ i := by
  rcases List.mem_cons.mp hi with rfl | hi
  · exact Nat.le_refl _
  · exact Nat.le_of_lt ((List.pairwise_cons.mp h).1 i hi)

theorem members_of_ofMembers? {vars : List Nat} (h : ofMembers? vars = some c) :
    c.members = vars.mergeSort ∧ c.others ≠ [] := by
  unfold ofMembers? at h
  split at h
  · next leader other others hsorted =>
    cases h
    exact ⟨hsorted.symm, List.cons_ne_nil _ _⟩
  · cases h

theorem exists_ofMembers? {vars : List Nat} (hi : i ∈ vars) (hj : j ∈ vars) (hne : i ≠ j) :
    ∃ c, ofMembers? vars = some c := by
  unfold ofMembers?
  split
  · exact ⟨_, rfl⟩
  · next hfew =>
    have hi' : i ∈ vars.mergeSort := List.mem_mergeSort.mpr hi
    have hj' : j ∈ vars.mergeSort := List.mem_mergeSort.mpr hj
    match hsorted : vars.mergeSort with
    | [] => rw [hsorted] at hi'; cases hi'
    | [k] =>
      rw [hsorted, List.mem_singleton] at hi' hj'
      exact absurd (hi'.trans hj'.symm) hne
    | k :: l :: rest => exact absurd hsorted (hfew k l rest)

/-- A graph that is connected has one class. -/
theorem ofPairs_of_connected {members : List Nat}
    (h : Partition.ofPairs (fun a b => a < b) pairs = [i :: j :: members])
    (hsorted : (i :: j :: members).Pairwise (· ≤ ·)) : ofPairs pairs = [⟨i, j :: members⟩] := by
  have hmembers : (i :: j :: members).mergeSort = i :: j :: members :=
    List.mergeSort_of_pairwise (by simpa using hsorted)
  rw [ofPairs, h]
  simp [ofMembers?, hmembers]

theorem mem_ofPairs : c ∈ ofPairs pairs ↔
    ∃ vars ∈ Partition.ofPairs (fun a b => a < b) pairs, ofMembers? vars = some c := by
  unfold ofPairs
  rw [List.mem_mergeSort, List.mem_filterMap]

/-- **The classes of equal variables are the components of the graph of the equalities.** -/
theorem isFolding_ofPairs (pairs : List (Nat × Nat)) : IsFolding pairs (ofPairs pairs) := by
  have hclassifies := classifies_ofPairs (fun a b => a < b) pairs
  have hmembers {c : EqualityClass} {vars : List Nat} (h : ofMembers? vars = some c) (i : Nat) :
      i ∈ c.members ↔ i ∈ vars := by
    rw [(members_of_ofMembers? h).1, List.mem_mergeSort]
  constructor
  case leaders =>
    -- classes that are apart have different leaders
    refine pairwise_lt_mergeSort EqualityClass.leader (List.pairwise_filterMap.mpr ?_)
    refine hclassifies.apart.imp fun {vars vars'} hapart c hc d hd hsame => ?_
    have hleader := (hmembers hc c.leader).mp c.leader_mem
    exact hapart _ hleader ((hmembers hd c.leader).mp (hsame ▸ d.leader_mem))
  case ascending =>
    intro c hc
    obtain ⟨vars, hvars, h⟩ := mem_ofPairs.mp hc
    rw [(members_of_ofMembers? h).1]
    exact pairwise_lt_mergeSort id (nodup_of_mem_ofPairs hvars)
  case others =>
    intro c hc
    obtain ⟨vars, -, h⟩ := mem_ofPairs.mp hc
    exact (members_of_ofMembers? h).2
  case component =>
    intro c hc i hi j
    obtain ⟨vars, hvars, h⟩ := mem_ofPairs.mp hc
    rw [hmembers h] at hi ⊢
    refine ⟨hclassifies.linked vars hvars i hi j, fun hlinked => ?_⟩
    obtain ⟨d, hd, hid, hjd⟩ := sameClass_iff.mpr ⟨hclassifies.covered vars hvars i hi, hlinked⟩
    rwa [hclassifies.eq_of_mem hvars hd hi hid]
  case complete =>
    intro i j hne hlinked
    obtain ⟨vars, hvars, hi, hj⟩ := sameClass_iff.mpr ⟨hlinked.mem_pair hne, hlinked⟩
    obtain ⟨c, h⟩ := exists_ofMembers? hi hj hne
    exact ⟨c, mem_ofPairs.mpr ⟨vars, hvars, h⟩, (hmembers h i).mpr hi⟩

example : ofPairs [(3, 4), (1, 4), (5, 6)] = [⟨1, [3, 4]⟩, ⟨5, [6]⟩] := by cbv

/-- Looking up a member of a class leads to the leader. -/
theorem find_eq_leader (hc : c ∈ ofPairs pairs) (hi : i ∈ c.members) :
    ((Forest.ofPairs (fun a b => a < b) pairs).find i).1 = c.leader := by
  have hfolding := isFolding_ofPairs pairs
  have hheaped := Forest.isHeaped_ofPairs pairs
  obtain ⟨root, depth, h⟩ := Forest.exists_represents (fun a b => a < b) pairs
  have hfind (a : Nat) : ((Forest.ofPairs (fun a b => a < b) pairs).find a).1 = root a :=
    (h.find a).1
  have hroot : root i = root c.leader :=
    (h.linked _ _).mpr ((hfolding.component c hc i hi _).mp c.leader_mem)
  -- the root is a member itself, and none is smaller than the leader
  have hmem : root i ∈ c.members :=
    (hfolding.component c hc i hi _).mpr ((h.linked _ _).mp (h.root_root i).symm)
  have hle : root c.leader ≤ c.leader := hfind c.leader ▸ (hheaped.find c.leader).1
  rw [hfind]
  exact Nat.le_antisymm (hroot ▸ hle) (leader_le (hfolding.ascending c hc) hmem)

/-- A member of a class is in some pair. -/
theorem IsFolding.mem_pair (h : IsFolding pairs classes) (hc : c ∈ classes) (hi : i ∈ c.members) :
    ∃ x ∈ pairs, i = x.1 ∨ i = x.2 := by
  obtain ⟨j, others, hothers⟩ := List.exists_cons_of_ne_nil (h.others c hc)
  have hj : j ∈ c.others := hothers ▸ List.mem_cons_self
  have hlt : c.leader < j := (List.pairwise_cons.mp (h.ascending c hc)).1 j hj
  by_cases hleader : i = c.leader
  · have hlinked := (h.component c hc i hi j).mp (List.mem_cons_of_mem _ hj)
    exact hlinked.mem_pair (hleader ▸ Nat.ne_of_lt hlt)
  · exact ((h.component c hc i hi c.leader).mp c.leader_mem).mem_pair hleader

/-- That the others of each class equal the leader says as much as that both sides of each pair are
equal. -/
theorem IsFolding.forall_eq_iff (h : IsFolding pairs classes) {V : Type} (ρ : Nat → V) :
    (∀ c ∈ classes, ∀ i ∈ c.others, ρ c.leader = ρ i) ↔ ∀ x ∈ pairs, ρ x.1 = ρ x.2 := by
  constructor
  · intro hclasses x hx
    have hlinked : Linked pairs x.1 x.2 := .rel _ _ hx
    by_cases hne : x.1 = x.2
    · rw [hne]
    obtain ⟨c, hc, hfirst⟩ := h.complete x.1 x.2 hne hlinked
    have hleader {i : Nat} (hi : i ∈ c.members) : ρ c.leader = ρ i := by
      rcases List.mem_cons.mp hi with rfl | hi
      · rfl
      · exact hclasses c hc i hi
    exact (hleader hfirst).symm.trans (hleader ((h.component c hc _ hfirst _).mpr hlinked))
  · intro hpairs c hc i hi
    have hlinked := (h.component c hc _ c.leader_mem i).mp (List.mem_cons_of_mem _ hi)
    exact hlinked.apply_eq hpairs

end EqualityClass

/-! ## The candidates -/

section Candidates

variable {p : Point} {included : Finding → Bool} {id : Nat} {k : Candidate}

/-- The pairs of variables that the included findings state to be equal. -/
def Point.equalPairs (p : Point) (included : Finding → Bool) : List (Nat × Nat) :=
  (p.findings.filter included).filterMap Finding.equality?

theorem Finding.equality?_eq_some {f : Finding} {x : Nat × Nat} : f.equality? = some x ↔
    ∃ s e, f = .sliced s e ∧ e.inv.isEquality ∧ s.key = [x.1, x.2] := by
  constructor
  · intro h
    unfold equality? at h
    split at h
    · next s e =>
      split at h
      · next i j hkey =>
        split at h
        · next hequality =>
          cases h
          exact ⟨s, e, rfl, hequality, hkey⟩
        · cases h
      · cases h
    all_goals cases h
  · rintro ⟨s, e, rfl, hequality, hkey⟩
    simp [equality?, hkey, hequality]

theorem Point.mem_equalPairs {x : Nat × Nat} : x ∈ p.equalPairs included ↔
    ∃ s e, .sliced s e ∈ p.findings ∧ included (.sliced s e) ∧ e.inv.isEquality ∧
      s.key = [x.1, x.2] := by
  unfold equalPairs
  simp only [List.mem_filterMap, List.mem_filter, Finding.equality?_eq_some]
  constructor
  · rintro ⟨_, ⟨hmem, hincluded⟩, s, e, rfl, hequality, hkey⟩
    exact ⟨s, e, hmem, hincluded, hequality, hkey⟩
  · rintro ⟨s, e, hmem, hincluded, hequality, hkey⟩
    exact ⟨_, ⟨hmem, hincluded⟩, s, e, rfl, hequality, hkey⟩

/-- Only the candidate for a class has the mark of a leader. -/
theorem Candidate.mark_ofFinding? {c : Catalog} {f : Finding} (h : ofFinding? id c f = some k)
    (i : Nat) : k.mark ≠ .leader i := by
  cases f <;> simp only [ofFinding?, ofSliced?, Option.bind_eq_bind, Option.bind_eq_some_iff,
    Option.some.injEq] at h <;> obtain ⟨formula, -, rfl⟩ := h <;> nofun

theorem Point.mem_leaders : (k ∈ p.candidates id included ∧ ∃ i, k.mark = .leader i) ↔
    ∃ c ∈ EqualityClass.ofPairs (p.equalPairs included), k = Candidate.ofClass p.catalog c := by
  unfold candidates
  dsimp only
  rw [List.mem_mergeSort, List.mem_append, List.mem_filterMap, List.mem_map]
  constructor
  · rintro ⟨⟨f, -, hf⟩ | ⟨c, hc, rfl⟩, i, hi⟩
    · exact absurd hi (Candidate.mark_ofFinding? hf i)
    · exact ⟨c, hc, rfl⟩
  · rintro ⟨c, hc, rfl⟩
    exact ⟨.inr ⟨c, hc, rfl⟩, c.leader, rfl⟩

/-- The formula of a class says of each of the others that it equals the leader. -/
theorem Candidate.formula_ofClass {c : Catalog} {e : EqualityClass}
    (h : ∀ i ∈ e.members, i < c.size) :
    (ofClass c e).formula = equations (e.others.map fun i => (c.nameAt e.leader, c.nameAt i)) := by
  have hsymbol {i : Nat} (hi : i < c.size) :
      ((c.names [i]).map (Dialect.name .prover)).headD "" = proverSymbol (c.nameAt i) := by
    obtain ⟨v, -, hname⟩ := c.names_cons_of_lt hi []
    rw [Catalog.nameAt, hname]
    rfl
  unfold ofClass equations
  dsimp only
  rw [List.map_map]
  congr 1
  refine List.map_congr_left fun i hi => ?_
  rw [hsymbol (h e.leader e.leader_mem), hsymbol (h i (List.mem_cons_of_mem _ hi))]
  rfl

/-- Two integers satisfy an equality if they are the same. -/
theorem Invariant.holds_iff_of_isEquality {inv : Invariant} (h : inv.isEquality) (a b : Int64) :
    inv.Holds [.int a, .int b] ↔ a = b := by
  cases inv <;> simp only [isEquality, decide_eq_true_eq, Bool.false_eq_true] at h
  next s =>
    constructor
    · rintro ⟨a', b', rest, hvalues, hsame⟩
      cases hvalues
      rw [h] at hsame
      exact Int64.toInt_inj.mp hsame
    · rintro rfl
      exact ⟨a, a, [], rfl, by rw [h]; rfl⟩

end Candidates

/-! ## Assignments -/

section Assignments

variable {c : Catalog} {p : Point} {included : Finding → Bool} {V : Type} {ρ : Nat → V}
  {value : String → V}

/-- The names of the variables have the values of the variables. -/
def Catalog.Agree (c : Catalog) (ρ : Nat → V) (value : String → V) : Prop :=
  ∀ i < c.size, value (c.nameAt i) = ρ i

/-- The names can have the values of the variables if variables of one name have the same value. -/
theorem Catalog.exists_agree_iff : (∃ value, c.Agree ρ value) ↔
    ∀ i < c.size, ∀ j < c.size, c.nameAt i = c.nameAt j → ρ i = ρ j := by
  constructor
  · rintro ⟨value, hagree⟩ i hi j hj hname
    rw [← hagree i hi, ← hagree j hj, hname]
  · intro h
    have hfactors : Function.FactorsThrough (fun i : Fin c.size => ρ i) fun i => c.nameAt i :=
      fun i j hname => h i i.2 j j.2 hname
    refine ⟨Function.extend (fun i : Fin c.size => c.nameAt i) (fun i => ρ i) fun _ => ρ 0, ?_⟩
    exact fun i hi => hfactors.extend_apply _ ⟨i, hi⟩

/-- Where no name occurs twice, the variables can have any values. -/
theorem Catalog.exists_agree (hnodup : (c.vars.map (·.name)).Nodup) (ρ : Nat → V) :
    ∃ value, c.Agree ρ value := by
  refine exists_agree_iff.mpr fun i hi j hj hname => ?_
  have hnames {i : Nat} (hi : i < c.size) : c.names [i] = [c.nameAt i] := names_eq_map (by simpa)
  have hkey : [i] = [j] := key_eq_of_names_eq hnodup (by simpa) (by simpa)
    (by rw [hnames hi, hnames hj, hname])
  rw [(List.cons.inj hkey).1]

/-- With these values of the variables, the included equalities are true. -/
def Point.EqualitiesHold (p : Point) (included : Finding → Bool) (ρ : Nat → V) : Prop :=
  ∀ s e i j, .sliced s e ∈ p.findings → included (.sliced s e) → e.inv.isEquality →
    s.key = [i, j] → ρ i = ρ j

theorem Point.equalitiesHold_iff :
    p.EqualitiesHold included ρ ↔ ∀ x ∈ p.equalPairs included, ρ x.1 = ρ x.2 := by
  constructor
  · intro h x hx
    obtain ⟨s, e, hmem, hincluded, hequality, hkey⟩ := mem_equalPairs.mp hx
    exact h s e _ _ hmem hincluded hequality hkey
  · intro h s e i j hmem hincluded hequality hkey
    exact h (i, j) (mem_equalPairs.mpr ⟨s, e, hmem, hincluded, hequality, hkey⟩)

/-- For integers this is what the invariants mean. -/
theorem Point.equalitiesHold_iff_holds {ρ : Nat → Int64} :
    p.EqualitiesHold included ρ ↔
      ∀ s e, .sliced s e ∈ p.findings → included (.sliced s e) → e.inv.isEquality → s.arity = 2 →
        e.inv.Holds (s.key.map fun i => .int (ρ i)) := by
  constructor
  · intro h s e hmem hincluded hequality harity
    obtain ⟨i, j, hkey⟩ := List.length_eq_two.mp harity
    rw [hkey]
    exact (Invariant.holds_iff_of_isEquality hequality _ _).mpr
      (h s e i j hmem hincluded hequality hkey)
  · intro h s e i j hmem hincluded hequality hkey
    have hholds := h s e hmem hincluded hequality (by simp [Slice.arity, hkey])
    rw [hkey] at hholds
    exact (Invariant.holds_iff_of_isEquality hequality _ _).mp hholds

/-- The variables of a class belong to the point. -/
theorem Point.Keyed.lt_of_mem_class (h : p.Keyed) {c : EqualityClass}
    (hc : c ∈ EqualityClass.ofPairs (p.equalPairs included)) {i : Nat} (hi : i ∈ c.members) :
    i < p.catalog.size := by
  obtain ⟨x, hx, hside⟩ := (EqualityClass.isFolding_ofPairs _).mem_pair hc hi
  obtain ⟨s, e, hmem, -, -, hkey⟩ := mem_equalPairs.mp hx
  obtain ⟨hslice, -⟩ : s ∈ p.slices ∧ e ∈ s.entries := by simpa [findings] using hmem
  have hlt := h.lt s hslice
  rw [hkey] at hlt
  rcases hside with rfl | rfl
  · exact hlt _ (by simp)
  · exact hlt _ (by simp)

/-- The formulas of the classes say of the names what the equalities say of the variables. -/
theorem Point.Keyed.leaders_hold_iff (h : p.Keyed) (id : Nat) (hagree : p.catalog.Agree ρ value) :
    (∀ k ∈ p.candidates id included, ∀ i, k.mark = .leader i → EquationsHold value k.formula) ↔
      p.EqualitiesHold included ρ := by
  have hformula {c : EqualityClass} (hc : c ∈ EqualityClass.ofPairs (p.equalPairs included)) :
      EquationsHold value (Candidate.ofClass p.catalog c).formula ↔
        ∀ i ∈ c.others, ρ c.leader = ρ i := by
    have hlt {i : Nat} (hi : i ∈ c.members) : i < p.catalog.size := h.lt_of_mem_class hc hi
    rw [Candidate.formula_ofClass fun i hi => hlt hi, equationsHold_equations, List.forall_mem_map]
    refine forall₂_congr fun i hi => ?_
    rw [hagree _ (hlt c.leader_mem), hagree i (hlt (List.mem_cons_of_mem _ hi))]
  rw [equalitiesHold_iff, ← (EqualityClass.isFolding_ofPairs _).forall_eq_iff]
  constructor
  · intro hleaders c hc
    obtain ⟨hk, i, hi⟩ := mem_leaders.mpr ⟨c, hc, rfl⟩
    exact (hformula hc).mp (hleaders _ hk i hi)
  · intro hclasses k hk i hi
    obtain ⟨c, hc, rfl⟩ := mem_leaders.mp ⟨hk, i, hi⟩
    exact (hformula hc).mpr (hclasses c hc)

end Assignments

namespace Context

open LikelyInvariants.Partition

variable {ctx : Context} {id : Nat} {p : Point}

/-- **Folding equalities into classes keeps what they say.** Looking up a variable always comes to
an end, and it ends at the smallest variable of its class. The classes are the components of the
graph of the equalities that have two members or more. Whatever the values of the variables are, if
they are values of their names, the formulas of all classes are true if and only if all equalities
are. They are values of the names if variables of one name have the same value, and so they always
are where no name occurs twice. -/
theorem folds_equalities (h : ctx.Attained) (hp : ctx.points[id]? = some p)
    (included : Finding → Bool) :
    (∀ pairs : List (Nat × Nat),
      (∀ looked i, ((Forest.ofPairs (fun a b => a < b) pairs).lookUp looked).Terminates i) ∧
      EqualityClass.IsFolding pairs (EqualityClass.ofPairs pairs) ∧
      ∀ c ∈ EqualityClass.ofPairs pairs, ∀ i ∈ c.members,
        ((Forest.ofPairs (fun a b => a < b) pairs).find i).1 = c.leader) ∧
    (∀ (V : Type) (ρ : Nat → V),
      ((∃ value, p.catalog.Agree ρ value) ↔ ∀ i < p.catalog.size, ∀ j < p.catalog.size,
        p.catalog.nameAt i = p.catalog.nameAt j → ρ i = ρ j) ∧
      ((p.catalog.vars.map (·.name)).Nodup → ∃ value, p.catalog.Agree ρ value) ∧
      ∀ value, p.catalog.Agree ρ value →
        ((∀ k ∈ p.candidates id included, ∀ i, k.mark = .leader i →
          EquationsHold value k.formula) ↔ p.EqualitiesHold included ρ)) ∧
    ∀ ρ : Nat → Int64, p.EqualitiesHold included ρ ↔
      ∀ s e, .sliced s e ∈ p.findings → included (.sliced s e) → e.inv.isEquality → s.arity = 2 →
        e.inv.Holds (s.key.map fun i => .int (ρ i)) := by
  refine ⟨fun pairs => ⟨?_, EqualityClass.isFolding_ofPairs pairs, ?_⟩,
    fun V ρ => ⟨Catalog.exists_agree_iff, ?_, ?_⟩, ?_⟩
  · exact fun looked i => Forest.terminates_lookUp _ pairs looked i
  · exact fun c hc i hi => EqualityClass.find_eq_leader hc hi
  · exact fun hnodup => Catalog.exists_agree hnodup ρ
  · exact fun value hagree => (h.keyed hp).leaders_hold_iff id hagree
  · exact fun ρ => Point.equalitiesHold_iff_holds

/-- A context that looks for equalities only. -/
def ofEqualities : Context :=
  { Context.standard with factories := .ofKinds [.comparison .eq] }

/-- Three variables have the same value, one of which is called `x y`. -/
def tied : List Action :=
  [.addPoint "P" [{ name := "b", type := .int }, { name := "x y", type := .int },
      { name := "a", type := .int }],
    .add 0 ⟨[some ⟨.int 5, true⟩, some ⟨.int 5, true⟩, some ⟨.int 5, true⟩]⟩ 3]

/-- The point after that. -/
def tiedPoint : Point where
  name := "P"
  catalog := .ofList [{ name := "b", type := .int }, { name := "x y", type := .int },
    { name := "a", type := .int }]
  slices :=
    [{ key := [0, 1], entries := [⟨0, .compared { op := .eq, samples := 3 }⟩], samples := 3 },
      { key := [0, 2], entries := [⟨1, .compared { op := .eq, samples := 3 }⟩], samples := 3 },
      { key := [1, 2], entries := [⟨2, .compared { op := .eq, samples := 3 }⟩], samples := 3 }]
  samples := 3
  viewsOpen := true
  nextId := 3

theorem points_tied : (ofEqualities.after tied).points[0]? = some tiedPoint := by
  decide +kernel

/-- The candidate for the three equalities. -/
def allSame : Candidate where
  mark := .leader 0
  rank := { kind := "Equality", names := ["b", "x y", "a"], detail := "" }
  formula := "(AND (EQ b |x y|) (EQ b a))"

theorem equalPairs_tied : tiedPoint.equalPairs (fun _ => true) = [(0, 1), (0, 2), (1, 2)] := by
  decide +kernel

theorem candidates_tied : tiedPoint.candidates 0 (fun _ => true) = [allSame] := by
  have hclasses : EqualityClass.ofPairs [(0, 1), (0, 2), (1, 2)] = [⟨0, [1, 2]⟩] :=
    EqualityClass.ofPairs_of_connected (by decide +kernel) (by decide)
  have hpairs : (tiedPoint.findings.filter fun _ => true).filterMap Finding.equality? =
      [(0, 1), (0, 2), (1, 2)] := equalPairs_tied
  unfold Point.candidates
  dsimp only
  rw [hpairs, hclasses, List.mergeSort_of_pairwise (by decide +kernel)]
  decide +kernel

/-- With two equations the three equalities are said. -/
theorem folds_equalities_tied :
    tiedPoint.candidates 0 (fun _ => true) = [allSame] ∧
    ∀ ρ : Nat → Int64, ∃ value : String → Int64,
      (value "b" = ρ 0 ∧ value "x y" = ρ 1 ∧ value "a" = ρ 2) ∧
      (EquationsHold value allSame.formula ↔ ρ 0 = ρ 1 ∧ ρ 0 = ρ 2 ∧ ρ 1 = ρ 2) := by
  obtain ⟨-, hmeaning, -⟩ := folds_equalities (p := tiedPoint) ⟨ofEqualities, tied, rfl, rfl⟩
    points_tied fun _ => true
  refine ⟨candidates_tied, fun ρ => ?_⟩
  obtain ⟨-, hexists, hiff⟩ := hmeaning Int64 ρ
  obtain ⟨value, hagree⟩ := hexists (by decide)
  have hfolded := hiff value hagree
  rw [candidates_tied, Point.equalitiesHold_iff, equalPairs_tied] at hfolded
  refine ⟨value, ⟨hagree 0 (by decide), hagree 1 (by decide), hagree 2 (by decide)⟩, ?_⟩
  simpa [allSame] using hfolded

/-- Two variables of one name have the same value. -/
def namesakes : List Action :=
  [.addPoint "P" [{ name := "x", type := .int }, { name := "x", type := .int }],
    .add 0 ⟨[some ⟨.int 5, true⟩, some ⟨.int 5, true⟩]⟩ 3]

/-- The point after that. -/
def namesakesPoint : Point where
  name := "P"
  catalog := .ofList [{ name := "x", type := .int }, { name := "x", type := .int }]
  slices :=
    [{ key := [0, 1], entries := [⟨0, .compared { op := .eq, samples := 3 }⟩], samples := 3 }]
  samples := 3
  viewsOpen := true
  nextId := 1

/-- The candidate for their equality. -/
def itself : Candidate where
  mark := .leader 0
  rank := { kind := "Equality", names := ["x", "x"], detail := "" }
  formula := "(AND (EQ x x))"

theorem candidates_namesakes : namesakesPoint.candidates 0 (fun _ => true) = [itself] := by
  have hclasses : EqualityClass.ofPairs [(0, 1)] = [⟨0, [1]⟩] :=
    EqualityClass.ofPairs_of_connected (by decide +kernel) (by decide)
  have hpairs : (namesakesPoint.findings.filter fun _ => true).filterMap Finding.equality? =
      [(0, 1)] := by decide +kernel
  unfold Point.candidates
  dsimp only
  rw [hpairs, hclasses, List.mergeSort_of_pairwise (by decide +kernel)]
  decide +kernel

/-- The equality of two variables of one name is folded into a formula that is true whatever their
values are. -/
theorem namesakes_said_of_one_name :
    (ofEqualities.after namesakes).points[0]? = some namesakesPoint ∧
    namesakesPoint.candidates 0 (fun _ => true) = [itself] ∧
    (∀ value : String → Int64, EquationsHold value itself.formula) ∧
    ¬ namesakesPoint.EqualitiesHold (fun _ => true) (fun i => if i = 0 then (1 : Int64) else 2) := by
  refine ⟨by decide +kernel, candidates_namesakes, fun value => ?_, fun h => ?_⟩
  · exact ⟨[("x", "x")], by decide, by simp⟩
  · have hequal : ((0, 1) : Nat × Nat) ∈ namesakesPoint.equalPairs fun _ => true := by
      decide +kernel
    exact absurd (Point.equalitiesHold_iff.mp h _ hequal) (by decide)

end Context

end LikelyInvariants
