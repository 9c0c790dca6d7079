import LikelyInvariants.Proofs.Derivation.Closure

/-!
# Derivation reaches the closure

Variables can be given to a point and derived at it in turns. What the point has derived is at any
time the closure of the variables it has derived from already (`Point.Saturated`): declarations come
after those, and a pass takes them in together with what it derives. Once the passes end there is
nothing left to derive from, so a run of passes leaves the closure of the whole catalog
(`Point.derived_perm_closure`), and another run right after it has nothing to do.

No pass is cut off. The variables that the `k`-th pass of a run starts from are at depth `k` or
more, and a run has one pass more than the greatest depth.
-/

namespace LikelyInvariants

open Update

/-- The rule, the name and the bases of a derived variable. -/
structure Provenance where
  rule : Rule
  name : String
  bases : List Nat
deriving DecidableEq

def Derivation.provenance (d : Derivation) : Provenance := ⟨d.rule, d.name, d.bases⟩

def Declaration.provenance? (d : Declaration) : Option Provenance :=
  d.origin.map fun o => ⟨o.rule, d.name, o.bases⟩

/-- Where a point gets variables from. -/
inductive Growth where
  | given (vars : List Declaration)
  | derived

namespace Growth

/-- The request to the point. -/
def request (rules : Rules) (s : DeriveSettings) : Growth → PointAction
  | given vars => .addVariables vars
  | derived => .createDerived rules s

/-- The variables that are added from outside: all of them, or none if there is a constant. -/
def added : Growth → List Declaration
  | given vars => if vars.any (·.isConstant) then [] else vars
  | derived => []

end Growth

namespace Point

/-- Whether the point derived the variable itself. -/
def derives (p : Point) (v : Variable) : Bool := p.derivations.any (·.1 = v.index)

/-- What the point derived, in the order of the catalog. -/
def derived (p : Point) : List Derivation := p.derivations.map Prod.snd

theorem derived_addDerived (p : Point) (ds : List Derivation) :
    (p.addDerived ds).derived = p.derived ++ ds := by
  have hsnd : (ds.mapIdx fun i d => (p.catalog.size + i, d)).map Prod.snd = ds := by
    refine List.ext_getElem? fun i => ?_
    rw [List.getElem?_map, List.getElem?_mapIdx, Option.map_map]
    exact Option.map_id'
  unfold derived addDerived
  rw [List.map_append, hsnd]

/-- A pass derives the variables at the positions from the end of the catalog on. -/
theorem derives_addDerived {p : Point} {ds : List Derivation} {v : Variable} :
    (p.addDerived ds).derives v ↔
      p.derives v ∨ v.index ∈ List.range' p.catalog.size ds.length := by
  have hnew : (ds.mapIdx fun i d => (p.catalog.size + i, d)).any (·.1 = v.index) ↔
      v.index ∈ List.range' p.catalog.size ds.length := by
    rw [List.any_eq_true, List.mem_range'_1]
    constructor
    · rintro ⟨x, hx, hindex⟩
      obtain ⟨i, hi, rfl⟩ := List.mem_mapIdx.mp hx
      rw [decide_eq_true_eq] at hindex
      omega
    · rintro ⟨hle, hlt⟩
      have hi : v.index - p.catalog.size < ds.length := by omega
      refine ⟨_, List.mem_mapIdx.mpr ⟨v.index - p.catalog.size, hi, rfl⟩, ?_⟩
      rw [decide_eq_true_eq]
      omega
  rw [← hnew, ← Bool.or_eq_true]
  unfold derives addDerived
  rw [List.any_append]

/-- A point that may get variables of its own, and whose edges do not stand in the way. -/
structure IsFree (p : Point) : Prop where
  open? : p.checkGrows = .ok ()
  edges : p.checkNoEdges = .ok ()

theorem isFree_ofVariables (name : String) (vars : List Declaration) :
    (ofVariables name vars).IsFree := ⟨rfl, rfl⟩

/-- What the point has derived is the closure of the variables before position `k`. The other
variables are the ones that were given to it. -/
structure Saturated (rules : Rules) (s : DeriveSettings) (k : Nat) (given : List Declaration)
    (p : Point) : Prop where
  indexed : p.catalog.IsIndexed
  bound : k ≤ p.catalog.size
  positions : ∀ x ∈ p.derivations, x.1 < p.catalog.size
  closed : p.derived.Perm (rules.closure s (p.catalog.before k))
  derived : (p.catalog.vars.filter p.derives).map (·.provenance?) =
    p.derived.map fun d => some d.provenance
  given : (p.catalog.vars.filter (!p.derives ·)).map Variable.toDeclaration = given

variable {rules : Rules} {s : DeriveSettings} {k : Nat} {given : List Declaration} {p : Point}

namespace Saturated

theorem ofVariables (name : String) (vars : List Declaration) :
    Saturated rules s 0 vars (ofVariables name vars) := by
  obtain ⟨new, hvars, hdeclared, -⟩ := Catalog.vars_append {} vars
  have hbefore : (Point.ofVariables name vars).catalog.before 0 = [] := by simp [Catalog.before]
  refine ⟨Catalog.isIndexed_ofList vars, Nat.zero_le _, by simp [Point.ofVariables], ?_, ?_, ?_⟩
  · rw [hbefore]
    exact List.Perm.refl _
  · simp [Point.ofVariables, derives, Point.derived]
  · have hall : (Catalog.ofList vars).vars = new := by simpa [Catalog.ofList] using hvars
    simpa [Point.ofVariables, derives, hall] using hdeclared

/-- A variable at the end is not among those derived so far. -/
theorem not_derives (h : Saturated rules s k given p) {v : Variable}
    (hv : p.catalog.size ≤ v.index) : p.derives v = false := by
  refine List.any_eq_false.mpr fun x hx => ?_
  have hlt := h.positions x hx
  rw [decide_eq_true_eq]
  omega

/-- Variables are given to the point. -/
theorem addGiven (h : Saturated rules s k given p) (vars : List Declaration) :
    Saturated rules s k (given ++ vars) { p with catalog := p.catalog.append vars } := by
  obtain ⟨new, hvars, hdeclared, hindex⟩ := p.catalog.vars_append vars
  have hnew : ∀ v ∈ new, p.derives v = false := by
    intro v hv
    have hmem : v.index ∈ List.range' p.catalog.size vars.length :=
      hindex ▸ List.mem_map_of_mem hv
    exact h.not_derives (List.mem_range'_1.mp hmem).1
  have hsize : p.catalog.size ≤ (p.catalog.append vars).size := by
    rw [Catalog.size_append]
    omega
  refine ⟨h.indexed.append vars, Nat.le_trans h.bound hsize, fun x hx => ?_, ?_, ?_, ?_⟩
  · exact Nat.lt_of_lt_of_le (h.positions x hx) hsize
  · show p.derived.Perm (rules.closure s ((p.catalog.append vars).before k))
    rw [Catalog.before_append h.bound]
    exact h.closed
  · have hnone : new.filter p.derives = [] :=
      List.filter_eq_nil_iff.mpr fun v hv => by simp [hnew v hv]
    show ((p.catalog.append vars).vars.filter p.derives).map (·.provenance?) = _
    rw [hvars, List.filter_append, hnone, List.append_nil]
    exact h.derived
  · have hall : new.filter (!p.derives ·) = new :=
      List.filter_eq_self.mpr fun v hv => by simp [hnew v hv]
    show ((p.catalog.append vars).vars.filter (!p.derives ·)).map _ = _
    rw [hvars, List.filter_append, hall, List.map_append, hdeclared]
    exact congrArg (· ++ vars) h.given

/-- A pass that starts where the point is saturated, and goes to the end, saturates it that far. -/
theorem addDerived (h : Saturated rules s k given p) : Saturated rules s p.catalog.size given
    (p.addDerived (p.catalog.derivePass rules s k p.catalog.size)) := by
  obtain ⟨ds, hds⟩ : ∃ ds, ds = p.catalog.derivePass rules s k p.catalog.size := ⟨_, rfl⟩
  rw [← hds]
  obtain ⟨new, hvars, hdeclared, hindex⟩ :=
    p.catalog.vars_append (ds.map (·.declaration p.catalog))
  have hcatalog : (p.addDerived ds).catalog.vars = p.catalog.vars ++ new := hvars
  have hsize := p.size_addDerived ds
  have hold : ∀ v ∈ p.catalog.vars, (p.addDerived ds).derives v = p.derives v := by
    intro v hv
    have hlt := h.indexed.index_lt hv
    have hnot : v.index ∉ List.range' p.catalog.size ds.length := fun hmem =>
      Nat.not_le_of_lt hlt (List.mem_range'_1.mp hmem).1
    rw [Bool.eq_iff_iff, derives_addDerived]
    simp [hnot]
  have hnew : ∀ v ∈ new, (p.addDerived ds).derives v = true := by
    intro v hv
    rw [List.length_map] at hindex
    exact derives_addDerived.mpr (.inr (hindex ▸ List.mem_map_of_mem hv))
  refine ⟨h.indexed.append _, by omega, fun x hx => ?_, ?_, ?_, ?_⟩
  · rcases List.mem_append.mp hx with hx | hx
    · have hlt := h.positions x hx
      omega
    · obtain ⟨i, _, rfl⟩ := List.mem_mapIdx.mp hx
      omega
  · have hbefore : (p.addDerived ds).catalog.before p.catalog.size = p.catalog.vars :=
      (Catalog.before_append (Nat.le_refl _) _).trans h.indexed.before_size
    rw [hbefore, derived_addDerived, hds]
    exact (h.closed.append_right _).trans (Catalog.perm_closure_derivePass h.indexed k).symm
  · have hprovenance : new.map (·.provenance?) = ds.map fun d => some d.provenance := by
      have hcomp : new.map (·.provenance?) =
          (new.map Variable.toDeclaration).map Declaration.provenance? := by rw [List.map_map]; rfl
      rw [hcomp, hdeclared, List.map_map]
      rfl
    rw [hcatalog, List.filter_append, List.filter_congr hold, List.filter_eq_self.mpr hnew,
      List.map_append, h.derived, hprovenance, derived_addDerived, List.map_append]
  · have hnone : new.filter (!(p.addDerived ds).derives ·) = [] :=
      List.filter_eq_nil_iff.mpr fun v hv => by simp [hnew v hv]
    have hsame : p.catalog.vars.filter (!(p.addDerived ds).derives ·) =
        p.catalog.vars.filter (!p.derives ·) := List.filter_congr fun v hv => by rw [hold v hv]
    rw [hcatalog, List.filter_append, hnone, List.append_nil, hsame, h.given]

/-- Where a pass finds nothing, the point is saturated to the end. -/
theorem toEnd (h : Saturated rules s k given p)
    (hnil : p.catalog.derivePass rules s k p.catalog.size = []) :
    Saturated rules s p.catalog.size given p := by
  have hadded := h.addDerived
  have hsame : p.addDerived [] = p := by simp [Point.addDerived]
  rw [hnil, hsame] at hadded
  exact hadded

end Saturated

/-! ## A run of passes -/

section Passes

variable {j : Nat}

/-- What a pass derives is deeper than the variables it starts from. -/
theorem lt_depth_addDerived (hindexed : p.catalog.IsIndexed)
    (hdepth : ∀ v ∈ p.catalog.vars, k ≤ v.index → j ≤ v.depth) {v : Variable}
    (hv : v ∈ (p.addDerived (p.catalog.derivePass rules s k p.catalog.size)).catalog.vars)
    (hindex : p.catalog.size ≤ v.index) : j < v.depth := by
  obtain ⟨new, hvars, hdeclared, -⟩ := p.catalog.vars_append
    ((p.catalog.derivePass rules s k p.catalog.size).map (·.declaration p.catalog))
  rw [addDerived, hvars, List.mem_append] at hv
  rcases hv with hv | hv
  · have hlt := hindexed.index_lt hv
    omega
  · have hmem : v.toDeclaration ∈ new.map Variable.toDeclaration := List.mem_map_of_mem hv
    rw [hdeclared, List.mem_map] at hmem
    obtain ⟨d, hd, heq⟩ := hmem
    obtain ⟨⟨w, hw, -, hk, hbase⟩, -⟩ := Catalog.of_mem_derivePass hindexed hd
    have hlt := Catalog.depth_lt_declaration hindexed hw hbase
    have hle := hdepth w hw hk
    rw [heq] at hlt
    omega

theorem exec_deriveFrom (fuel : Nat) (hfree : p.IsFree) (h : Saturated rules s k given p)
    (hdepth : ∀ v ∈ p.catalog.vars, k ≤ v.index → j ≤ v.depth) (hfuel : s.maxDepth < j + fuel) :
    ∃ q, (deriveFrom rules s fuel k p.catalog.size).exec p = (.ok q.catalog.size, q) ∧ q.IsFree ∧
      Saturated rules s q.catalog.size given q := by
  -- each pass trades a unit of fuel for one more level of depth
  induction fuel generalizing p k j with
  | zero =>
    refine ⟨p, rfl, hfree, h.toEnd (Catalog.derivePass_eq_nil h.indexed fun v hv hk => ?_)⟩
    have hle := hdepth v hv hk
    omega
  | succ fuel ih =>
    by_cases hlt : k < p.catalog.size
    · obtain ⟨ds, hds⟩ : ∃ ds, ds = p.catalog.derivePass rules s k p.catalog.size := ⟨_, rfl⟩
      have hstep : (deriveFrom rules s (fuel + 1) k p.catalog.size).exec p =
          (deriveFrom rules s fuel p.catalog.size (p.addDerived ds).catalog.size).exec
            (p.addDerived ds) := by
        rw [exec_deriveFrom_succ rules s fuel hlt, ← hds, hfree.edges, ite_self]
      have hgrown : (p.addDerived ds).IsFree := ⟨hfree.open?, hfree.edges⟩
      have hdeep : ∀ v ∈ (p.addDerived ds).catalog.vars, p.catalog.size ≤ v.index →
          j + 1 ≤ v.depth := by
        rw [hds]
        exact fun v hv hindex => lt_depth_addDerived h.indexed hdepth hv hindex
      rw [hstep]
      exact ih hgrown (hds ▸ h.addDerived) hdeep (by omega)
    · have hend : k = p.catalog.size := by
        have hbound := h.bound
        omega
      exact ⟨p, deriveFrom_done rules s _ hlt, hfree, hend ▸ h⟩

end Passes

/-! ## Requests for variables -/

/-- A point that was given some variables, and that derived what there is to derive from those it
has derived from already. -/
structure IsGrowing (rules : Rules) (s : DeriveSettings) (given : List Declaration) (p : Point) :
    Prop where
  free : p.IsFree
  saturated : Saturated rules s p.derivedThrough given p

namespace IsGrowing

theorem ofVariables (name : String) (vars : List Declaration) :
    IsGrowing rules s vars (ofVariables name vars) :=
  ⟨isFree_ofVariables name vars, .ofVariables name vars⟩

theorem addVariables (h : IsGrowing rules s given p) (vars : List Declaration) :
    IsGrowing rules s (given ++ (Growth.given vars).added) ((addVariables vars).exec p).2 := by
  have hexec : ((Point.addVariables vars).exec p).2 =
      (vars.find? (·.isConstant)).elim { p with catalog := p.catalog.append vars } fun _ => p := by
    simp only [Point.addVariables, exec_bind, exec_get, exec_lift, h.free.open?]
    cases vars.find? (·.isConstant) <;> split <;> simp [exec_bind, h.free.edges]
  rw [hexec]
  cases hconst : vars.find? (·.isConstant) with
  | some v =>
    have hany : vars.any (·.isConstant) = true :=
      List.any_eq_true.mpr ⟨v, List.mem_of_find?_eq_some hconst, List.find?_some hconst⟩
    simpa [Growth.added, hany] using h
  | none =>
    have hnone : vars.any (·.isConstant) = false :=
      List.any_eq_false.mpr fun v hv => List.find?_eq_none.mp hconst v hv
    have hadded : (Growth.given vars).added = vars := by simp [Growth.added, hnone]
    rw [hadded]
    exact ⟨⟨h.free.open?, h.free.edges⟩, h.saturated.addGiven vars⟩

/-- Derivation succeeds and leaves nothing to derive from. -/
theorem createDerived (h : IsGrowing rules s given p) :
    ∃ n q, (createDerived rules s).exec p = (.ok n, q) ∧ IsGrowing rules s given q ∧
      q.derivedThrough = q.catalog.size := by
  obtain ⟨q, hexec, hfree, hq⟩ := exec_deriveFrom (s.maxDepth + 1) h.free h.saturated
    (fun v _ _ => Nat.zero_le v.depth) (by omega)
  refine ⟨q.catalog.size - p.catalog.size, { q with derivedThrough := q.catalog.size }, ?_,
    ⟨⟨hfree.open?, hfree.edges⟩, ?_⟩, rfl⟩
  · simp [Point.createDerived, exec_bind, h.free.open?, hexec]
  · exact ⟨hq.indexed, hq.bound, hq.positions, hq.closed, hq.derived, hq.given⟩

/-- Derivation has nothing to do where there is nothing to derive from. -/
theorem exec_createDerived_end (h : IsGrowing rules s given p)
    (hend : p.derivedThrough = p.catalog.size) :
    (Point.createDerived rules s).exec p = (.ok 0, p) := by
  have hstop : ¬p.derivedThrough < p.catalog.size := by omega
  have hdone := deriveFrom_done rules s (s.maxDepth + 1) hstop
  simp only [Point.createDerived, exec_bind, exec_get, exec_lift, h.free.open?, hdone, exec_set,
    exec_pure, Nat.sub_self]
  rw [← hend]

theorem perform (h : IsGrowing rules s given p) (g : Growth) :
    IsGrowing rules s (given ++ g.added) ((Point.perform (g.request rules s)).exec p).2 := by
  cases g with
  | given vars =>
    simp only [Growth.request, Point.perform, exec_discard]
    exact h.addVariables vars
  | derived =>
    obtain ⟨n, q, hexec, hq, -⟩ := h.createDerived
    simp only [Growth.request, Point.perform, exec_discard, hexec, Growth.added, List.append_nil]
    exact hq

theorem after (h : IsGrowing rules s given p) (gs : List Growth) : IsGrowing rules s
    (given ++ gs.flatMap Growth.added) (p.after (gs.map (Growth.request rules s))) := by
  induction gs generalizing p given with
  | nil => simpa [Point.after] using h
  | cons g gs ih =>
    have hrest := ih (h.perform g)
    rw [List.append_assoc] at hrest
    exact hrest

end IsGrowing

/-- Whatever variables a point was given and whenever it derived variables in between: when it
derives variables now, then what it has derived in all is the closure of the variables it has in
the end, the other variables are those it was given, and there is nothing left to derive. -/
theorem derived_perm_closure (rules : Rules) (s : DeriveSettings) (name : String)
    (vars : List Declaration) (gs : List Growth) :
    ∃ n q, (createDerived rules s).exec
        ((ofVariables name vars).after (gs.map (Growth.request rules s))) = (.ok n, q) ∧
      ((q.catalog.vars.filter q.derives).map (·.provenance?)).Perm
        ((rules.closure s q.catalog.vars).map fun d => some d.provenance) ∧
      (q.catalog.vars.filter (!q.derives ·)).map Variable.toDeclaration =
        vars ++ gs.flatMap Growth.added ∧
      (createDerived rules s).exec q = (.ok 0, q) := by
  have hstart : IsGrowing rules s vars (ofVariables name vars) := .ofVariables name vars
  obtain ⟨n, q, hexec, hq, hend⟩ := (hstart.after gs).createDerived
  refine ⟨n, q, hexec, ?_, hq.saturated.given, hq.exec_createDerived_end hend⟩
  have hall : q.catalog.before q.derivedThrough = q.catalog.vars :=
    hend ▸ hq.saturated.indexed.before_size
  rw [hq.saturated.derived, ← hall]
  exact hq.saturated.closed.map _

end Point

end LikelyInvariants
