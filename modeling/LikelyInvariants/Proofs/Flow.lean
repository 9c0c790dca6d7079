import LikelyInvariants.Proofs.Edges
import LikelyInvariants.Proofs.Intake

/-!
# Flow

A sample that is added to a point and flows on is added to the point and then, mapped along each
dataflow edge, to the point at the other end (`Context.exec_addAndFlow`), whose variables it fits
(`Context.carries_fitting`). Whether the first point takes the sample or ignores it does not matter
for the others: what comes of a successful request is that every point has taken what was delivered
above it and that it selects (`Context.flows_regardless`).
-/

namespace LikelyInvariants

open Update

namespace Context

variable {ctx ctx' : Context} {id : Nat} {p : Point}

/-- The samples that are added, and where, when a sample flows on from a point. -/
def deliveries (ctx : Context) (id : Nat) (p : Point) (s : Sample) : List (Nat × Sample) :=
  (id, s) :: p.dataflow.map fun e =>
    (e.target, e.carry p.catalog (ctx.points[e.target]?.elim {} Point.catalog) s)

/-- A sample that flows on is added to the point and to the targets of its edges, in this order. -/
theorem exec_addAndFlow (hp : ctx.points[id]? = some p)
    (htargets : ∀ e ∈ p.dataflow, ∃ q, ctx.points[e.target]? = some q) (s : Sample)
    (count : Nat) : (addAndFlow id s count).exec ctx =
      exec ((ctx.deliveries id p s).forM fun x => add x.1 x.2 count) ctx := by
  show exec (add id s count >>= fun _ => _) ctx =
    exec (add id s count >>= fun _ => List.forM _ _) ctx
  refine exec_bind_congr rfl fun _ t ht => ?_
  have hmoves := sliced_add id s count ctx
  rw [ht] at hmoves
  obtain ⟨p', hp', hsame⟩ := hmoves.point hp
  have hdataflow : p'.dataflow = p.dataflow := by
    obtain ⟨_, _, _, _, rfl⟩ := hsame
    rfl
  have hflows : exec (p'.dataflow.mapM fun e => do
      let q ← t.point e.target
      return (e.target, e.carry p'.catalog q.catalog s)) t = (.ok (p.dataflow.map fun e =>
        (e.target, e.carry p.catalog (ctx.points[e.target]?.elim {} Point.catalog) s)), t) := by
    rw [hdataflow, hsame.steady.catalog]
    refine exec_mapM fun e he => ?_
    obtain ⟨q, hq⟩ := htargets e he
    obtain ⟨q', hq', hsliced⟩ := hmoves.point hq
    simp [point, hq, hq', hsliced.steady.catalog]
  have hpoint : exec (liftM (t.point id)) t = (.ok p', t) := by rw [exec_lift, point, hp']
  rw [exec_bind_ok (exec_get t), exec_bind_ok hpoint, exec_bind_ok hflows]

/-- The targets of all edges exist. -/
theorem Attained.exists_target (h : ctx.Attained) (hp : ctx.points[id]? = some p) {e : FlowEdge}
    (he : e ∈ p.dataflow) : ∃ q, ctx.points[e.target]? = some q := by
  obtain ⟨q, hq, -⟩ := h.routed.fits hp (List.mem_append_left p.invflow he)
  exact ⟨q, hq⟩

theorem Attained.exists_of_mem_deliveries (h : ctx.Attained) (hp : ctx.points[id]? = some p)
    (s : Sample) : ∀ x ∈ ctx.deliveries id p s, ∃ q, ctx.points[x.1]? = some q := by
  intro x hx
  rcases List.mem_cons.mp hx with rfl | hx
  · exact ⟨p, hp⟩
  · obtain ⟨e, he, rfl⟩ := List.mem_map.mp hx
    exact h.exists_target hp he

/-- A sample flows on by the offers that its deliveries come to, up to the first one that is not
admitted. -/
theorem Attained.exec_addAndFlow (h : ctx.Attained) (hp : ctx.points[id]? = some p) (s : Sample)
    (count : Nat) : (addAndFlow id s count).exec ctx =
      ((ctx.offers (ctx.deliveries id p s)).forM ctx.admits, ctx.receive count
        ((ctx.offers (ctx.deliveries id p s)).takeWhile fun x => (ctx.admits x).isOk)) := by
  rw [Context.exec_addAndFlow hp fun e he => h.exists_target hp he]
  exact h.exec_adds (h.exists_of_mem_deliveries hp s) count

/-! ## What arrives -/

/-- **Samples can be mapped along every edge at any time.** After any session an edge maps every
variable of its point, to variables that its target has, and the slots of both are in range. What
arrives of a sample fits the target, also when other samples are added first, and for a dataflow
edge it is what the target is sent when a sample is added and flows on. Of the variables with a slot
that are mapped to one variable the last counts, and a variable that none is mapped to is missing. -/
theorem carries_fitting {ctx : Context} (h : ctx.Attained) {id : Nat} {p : Point} {e : FlowEdge}
    (hp : ctx.points[id]? = some p) (he : e ∈ p.dataflow ++ p.invflow) :
    ∃ q, ctx.points[e.target]? = some q ∧ e.Fits p.catalog q.catalog ∧
      p.catalog.IsSlotted ∧ q.catalog.IsSlotted ∧
      (∀ t i j, e.Sends p.catalog t i j → j < p.catalog.slotCount) ∧
      ∀ s, (e.carry p.catalog q.catalog s).size = q.catalog.slotCount ∧
        (∀ (xs : List (Nat × Sample)) (count : Nat), ∃ q',
          (exec (xs.forM fun x => add x.1 x.2 count) ctx).2.points[e.target]? = some q' ∧
            q'.checkArity (e.carry p.catalog q.catalog s) = .ok ()) ∧
        (e ∈ p.dataflow → ∀ count, (addAndFlow id s count).exec ctx =
            exec ((ctx.deliveries id p s).forM fun x => add x.1 x.2 count) ctx ∧
          (e.target, e.carry p.catalog q.catalog s) ∈ ctx.deliveries id p s) ∧
        ∀ t w k, q.catalog.var? t = some w → w.slot = some k → k < q.catalog.slotCount ∧
          (∀ i j, e.Sends p.catalog t i j → (∀ i' j', e.Sends p.catalog t i' j' → i' ≤ i) →
            (e.carry p.catalog q.catalog s).slots[k]? = some (s.reading? j)) ∧
          ((∀ i j, ¬e.Sends p.catalog t i j) →
            (e.carry p.catalog q.catalog s).slots[k]? = some none) := by
  have hrouted := h.routed
  obtain ⟨q, hq, hfits⟩ := hrouted.fits hp he
  have hslotted {i : Nat} {r : Point} (hr : ctx.points[i]? = some r) :
      r.catalog.IsSlotted := by
    obtain ⟨ds, hds⟩ := hrouted.ofList hr
    rw [hds]
    exact Catalog.isSlotted_ofList ds
  have htarget := hslotted hq
  refine ⟨q, hq, hfits, hslotted hp, htarget, fun t i j ⟨_, v, hv, hj⟩ =>
    (hslotted hp).slot_lt hv hj, fun s => ⟨e.size_carry p.catalog q.catalog s, fun xs count => ?_,
      fun hflow count => ⟨Context.exec_addAndFlow hp (fun e he => h.exists_target hp he) s count, ?_⟩,
      fun t w k hw hk => ⟨htarget.slot_lt hw hk, fun i j hi hlast => ?_, fun hnone => ?_⟩⟩⟩
  · have hmoves : Moves Point.Sliced ctx _ :=
      keeps_forM (moves_trans Point.sliced_trans) (moves_refl Point.sliced_refl) xs
        (fun x _ => sliced_add x.1 x.2 count) ctx
    obtain ⟨q', hq', hsliced⟩ := hmoves.point hq
    refine ⟨q', hq', ?_⟩
    rw [Point.checkArity, if_pos]
    rw [hsliced.steady.catalog]
    exact e.size_carry p.catalog q.catalog s
  · refine List.mem_cons_of_mem _ (List.mem_map.mpr ⟨e, hflow, ?_⟩)
    rw [hq]
    rfl
  · exact FlowEdge.slots_carry_of_last htarget hw hk hi hlast s
  · exact FlowEdge.slots_carry_of_none htarget hw hk hnone s

/-- Two variables and a constant are mapped to one variable, and then the target gets another. -/
def narrowing : List Action :=
  [.addPoint "P" [{ name := "K", type := .int, constant := some (.int 5) },
      { name := "x", type := .int }, { name := "y", type := .int }],
    .addPoint "T" [{ name := "C", type := .int, constant := some (.int 7) },
      { name := "u", type := .int }],
    .addDataflow 0 1 [some 1, some 1, some 1], .addVariables 1 [{ name := "v", type := .int }]]

/-- The last of the three arrives, and nothing for the new variable. -/
theorem carries_fitting_narrowing :
    let e : FlowEdge := ⟨1, [some 1, some 1, some 1]⟩
    ∃ p q, (standard.after narrowing).points[0]? = some p ∧ e ∈ p.dataflow ∧
      (standard.after narrowing).points[1]? = some q ∧
      (e.carry p.catalog q.catalog ⟨[some ⟨.int 1, true⟩, some ⟨.int 2, true⟩]⟩).slots =
        [some ⟨.int 2, true⟩, none] := by
  intro e
  have hsource : (standard.after narrowing).points[0]?.map (fun p => (p.catalog.vars.map (·.slot),
      p.dataflow)) = some ([none, some 0, some 1], [e]) := by decide +kernel
  obtain ⟨p, hp, hpair⟩ := Option.map_eq_some_iff.mp hsource
  obtain ⟨hvars, hflow⟩ := Prod.mk.inj hpair
  have he : e ∈ p.dataflow := by simp [hflow]
  obtain ⟨q, hq, -, -, -, -, hcarry⟩ :=
    carries_fitting ⟨standard, narrowing, rfl, rfl⟩ hp (List.mem_append_left p.invflow he)
  have htarget : (standard.after narrowing).points[1]?.map (fun q =>
      (q.catalog.vars.map (·.slot), q.catalog.slotCount)) =
        some ([none, some 0, some 1], 2) := by decide +kernel
  rw [show (standard.after narrowing).points[1]? = some q from hq] at htarget
  obtain ⟨hslots, hcount⟩ := Prod.mk.inj (Option.some.inj htarget)
  obtain ⟨hsize, -, -, hvariables⟩ := hcarry ⟨[some ⟨.int 1, true⟩, some ⟨.int 2, true⟩]⟩
  have hslot {c : Catalog} {i : Nat} {o : Option Nat}
      (hc : c.vars.map (·.slot) = [none, some 0, some 1])
      (ho : [none, some 0, some 1][i]? = some o) : ∃ v, c.var? i = some v ∧ v.slot = o := by
    rw [← hc, List.getElem?_map] at ho
    exact Option.map_eq_some_iff.mp ho
  obtain ⟨u, hu, hu'⟩ := hslot (i := 1) hslots rfl
  obtain ⟨v, hv, hv'⟩ := hslot (i := 2) hslots rfl
  have hfirst := (hvariables 1 u 0 hu hu').2.1 2 1 ⟨rfl, hslot hvars rfl⟩ fun i j hi =>
    Nat.le_of_lt_succ (List.getElem?_eq_some_iff.mp hi.1).1
  have hsecond := (hvariables 2 v 1 hv hv').2.2 fun i j hi => by
    simpa [e] using List.mem_of_getElem? hi.1
  refine ⟨p, q, hp, he, hq, List.ext_getElem? fun k => ?_⟩
  match k with
  | 0 => exact hfirst
  | 1 => exact hsecond
  | k + 2 =>
    refine List.getElem?_eq_none ?_
    rw [Sample.size, hcount] at hsize
    omega

/-! ## Who takes it -/

/-- **Flow does not ask who took the sample.** When a sample was added and flowed on, it was added
to the point, and mapped along each dataflow edge it was added once to the target, whether the point
took it or ignored it. Every point has taken what was added to it or to a point above it, and got to
it. -/
theorem flows_regardless (h : ctx.Attained) {s : Sample} {count : Nat}
    (hp : ctx.points[id]? = some p) (hflow : (addAndFlow id s count).exec ctx = (.ok ⟨⟩, ctx')) :
    (∀ e ∈ p.dataflow, ∃ q, ctx.points[e.target]? = some q) ∧
    exec ((ctx.deliveries id p s).forM fun x => add x.1 x.2 count) ctx = (.ok ⟨⟩, ctx') ∧
    ∀ (d : Nat) (q : Point), ctx.points[d]? = some q →
      ctx'.points[d]? = some (q.takingAll ctx.scope
        (((ctx.deliveries id p s).filter fun x =>
          d ∈ ctx.offered x.2 x.1 && q.selects x.2).map fun x => (x.2, count))) := by
  have htargets : ∀ e ∈ p.dataflow, ∃ q, ctx.points[e.target]? = some q :=
    fun e he => h.exists_target hp he
  refine ⟨htargets, by rw [← Context.exec_addAndFlow hp htargets, hflow], fun d q hq => ?_⟩
  rw [h.exec_addAndFlow hp] at hflow
  obtain ⟨hadmits, rfl⟩ := Prod.mk.inj hflow
  have hall : ∀ x ∈ ctx.offers (ctx.deliveries id p s), (ctx.admits x).isOk :=
    fun x hx => by rw [forM_ok hadmits x hx]; rfl
  rw [List.takeWhile_eq_self_iff.mpr hall, getElem?_receive, hq, Option.map_some,
    h.wellFormed.isForest.share_offers]

/-- The second child of a split has an edge to another point. -/
def conditionalSource : List Action :=
  [.addPoint "P" [{ name := "x", type := .int }], .split 0 [.compare "x" .gt 0],
    .addPoint "T" [{ name := "y", type := .int }], .addDataflow 2 3 [some 0]]

/-- The child ignores a sample, and the other point takes it all the same. -/
theorem flows_regardless_ignored :
    let s : Sample := ⟨[some ⟨.int (-1), true⟩]⟩
    ∃ p q, (standard.after conditionalSource).points[2]? = some p ∧ p.selects s = false ∧
      (standard.after conditionalSource).points[3]? = some q ∧
      ((addAndFlow 2 s 1).exec (standard.after conditionalSource)).2.points[2]? = some p ∧
      ((addAndFlow 2 s 1).exec (standard.after conditionalSource)).2.points[3]? =
        some (q.takingAll (standard.after conditionalSource).scope [(s, 1)]) := by
  intro s
  obtain ⟨p, hp, hpair⟩ := Option.map_eq_some_iff.mp
    (show (standard.after conditionalSource).points[2]?.map (fun p => (p.selects s,
        (standard.after conditionalSource).deliveries 2 p s)) = some (false, [(2, s), (3, s)]) by
      decide +kernel)
  obtain ⟨q, hq, hselects⟩ := Option.map_eq_some_iff.mp
    (show (standard.after conditionalSource).points[3]?.map (·.selects s) = some true by
      decide +kernel)
  obtain ⟨hignored, hdeliveries⟩ := Prod.mk.inj hpair
  have hoffered : ((standard.after conditionalSource).offered s 2,
      (standard.after conditionalSource).offered s 3) = ([2], [3]) := by decide +kernel
  obtain ⟨hsecond, hthird⟩ := Prod.mk.inj hoffered
  have hsuccess : ((addAndFlow 2 s 1).exec (standard.after conditionalSource)).1 = .ok ⟨⟩ := by
    decide +kernel
  rcases hflow : (addAndFlow 2 s 1).exec (standard.after conditionalSource) with ⟨result, fed⟩
  rw [hflow] at hsuccess
  subst hsuccess
  obtain ⟨-, -, hafter⟩ := flows_regardless ⟨standard, conditionalSource, rfl, rfl⟩ hp hflow
  refine ⟨p, q, hp, hignored, hq, ?_, ?_⟩
  · rw [hafter 2 p hp, hdeliveries]
    simp [hsecond, hthird, hignored, Point.takingAll]
  · rw [hafter 3 q hq, hdeliveries]
    simp [hsecond, hthird, hselects]

/-- What a point ignores is not withheld from the targets of its edges. -/
theorem ignored_sample_flows :
    let s : Sample := ⟨[some ⟨.int (-1), true⟩]⟩
    (standard.after conditionalSource).points[2]?.map (fun p => (p.selects s, p.dataflow)) =
        some (false, [⟨3, [some 0]⟩]) ∧
      ((addAndFlow 2 s 1).exec (standard.after conditionalSource)).1 = .ok ⟨⟩ ∧
      (standard.after conditionalSource).points.map (·.samples) = [0, 0, 0, 0] ∧
      ((addAndFlow 2 s 1).exec (standard.after conditionalSource)).2.points.map (·.samples) =
        [0, 0, 0, 1] := by
  decide +kernel

end Context

end LikelyInvariants
