import LikelyInvariants.Proofs.Flow
import LikelyInvariants.Proofs.Mirror

/-!
# Refused samples

A point refuses a sample that does not fit its variables, and one for which it would have to open
its slices while one of them is open already (`Point.Refuses`). There is no way back from a refusal:
a request that meets one fails, and what was offered to other points before has been taken
(`Context.stops_at_refusal`). Nothing changes if the point that the sample is added to refuses it
itself. If children have the variables of their parents, and slices are opened by hand only after
the others, no other point ever refuses one; without that a request can fail halfway
(`Context.failed_add_feeds`).
-/

namespace LikelyInvariants

open Update

/-! ## Refusals -/

/-- Why a point does not admit a sample. -/
inductive Point.Refuses (scope : Scope) (s : Sample) (p : Point) : Error → Prop
  /-- The sample has not a slot for each variable. -/
  | arity (h : s.size ≠ p.catalog.slotCount) :
      Refuses scope s p (.arityMismatch p.name p.catalog.slotCount s.size)
  /-- The slices have to be opened for the sample, and this is the first of them that is open. -/
  | duplicate {key : List Nat} {invs : List Invariant} (harity : s.size = p.catalog.slotCount)
      (hselects : p.selects s) (hclosed : p.viewsOpen = false)
      (hfirst : (p.views scope).find? (fun x => (p.slice? x.1).isSome) = some (key, invs)) :
      Refuses scope s p (.duplicateSlice p.name key)

theorem Point.admits_eq_error_iff {scope : Scope} {s : Sample} {p : Point} {e : Error} :
    p.admits scope s = .error e ↔ p.Refuses scope s e := by
  constructor
  · intro h
    unfold admits checkArity at h
    split at h
    · next hcheck =>
      split at hcheck
      · cases hcheck
      · next hsize =>
        cases hcheck
        cases h
        exact .arity hsize
    · next hcheck =>
      split at hcheck
      · next hsize =>
        split at h
        · next hopens =>
          rw [pendingAll_eq] at h
          simp only [Bool.and_eq_true, Bool.not_eq_true'] at hopens
          split at h
          · next key invs hfirst =>
            cases h
            exact .duplicate hsize hopens.1 hopens.2 hfirst
          · cases h
        · cases h
      · cases hcheck
  · intro h
    cases h with
    | arity h => simp [admits, checkArity, h]
    | duplicate harity hselects hclosed hfirst =>
      simp [admits, checkArity, harity, hselects, hclosed, pendingAll_eq, hfirst]

/-- A point that is ready refuses only what does not fit its variables. -/
theorem Point.IsReady.size_ne {scope : Scope} {s : Sample} {p : Point} {e : Error} (h : p.IsReady)
    (hrefuses : p.Refuses scope s e) : s.size ≠ p.catalog.slotCount := by
  intro hsize
  have hadmits : p.admits scope s = .ok () := h.admits (by simp [checkArity, hsize])
  rw [admits_eq_error_iff.mpr hrefuses] at hadmits
  cases hadmits

/-- A loop fails at the first element at which its body does. -/
theorem forM_eq_error_iff {α : Type} {f : α → Except Error PUnit} {l : List α} {e : Error} :
    l.forM f = .error e ↔
      ∃ before a after, l = before ++ a :: after ∧ (∀ b ∈ before, f b = .ok ⟨⟩) ∧
        f a = .error e := by
  induction l with
  | nil => simp [pure, Except.pure]
  | cons a l ih =>
    have hcons : (a :: l).forM f = (f a >>= fun _ => l.forM f) := rfl
    rw [hcons]
    cases ha : f a with
    | error e' =>
      constructor
      · rintro ⟨⟩
        exact ⟨[], a, l, rfl, by simp, ha⟩
      · rintro ⟨before, b, after, hl, hbefore, hb⟩
        cases before with
        | nil =>
          cases hl
          rw [← ha, hb]
          rfl
        | cons c before =>
          cases hl
          rw [hbefore a List.mem_cons_self] at ha
          cases ha
    | ok u =>
      refine ih.trans ⟨?_, ?_⟩
      · rintro ⟨before, b, after, rfl, hbefore, hb⟩
        exact ⟨a :: before, b, after, rfl, List.forall_mem_cons.mpr ⟨ha, hbefore⟩, hb⟩
      · rintro ⟨before, b, after, hl, hbefore, hb⟩
        cases before with
        | nil =>
          cases hl
          rw [ha] at hb
          cases hb
        | cons c before =>
          cases hl
          exact ⟨before, b, after, rfl, (List.forall_mem_cons.mp hbefore).2, hb⟩

namespace Context

variable {ctx ctx' : Context} {id count : Nat} {s : Sample} {e : Error}

/-- When some samples are added to points, some offers are admitted, and then a point refuses the
next one. -/
structure StopsAfter (ctx : Context) (xs before : List (Nat × Sample)) (e : Error) : Prop where
  admitted : ∀ x ∈ before, ctx.admits x = .ok ⟨⟩
  refused : ∃ d t after q, ctx.offers xs = before ++ (d, t) :: after ∧
    ctx.points[d]? = some q ∧ q.Refuses ctx.scope t e

/-- Every offer is made to a point below the one that its sample is added to. -/
theorem mem_offers {xs : List (Nat × Sample)} {d : Nat} {t : Sample} (h : (d, t) ∈ ctx.offers xs) :
    ∃ i, (i, t) ∈ xs ∧ ctx.IsBelow i d := by
  obtain ⟨⟨i, t'⟩, hx, hd⟩ := List.mem_flatMap.mp h
  obtain ⟨d', hd', heq⟩ := List.mem_map.mp hd
  cases heq
  exact ⟨i, hx, isBelow_of_mem_offeredWithin hd'⟩

/-- The offers fail at the first refusal, and those before it are received. -/
theorem IsForest.stopsAfter_iff (h : ctx.IsForest) {xs : List (Nat × Sample)}
    (hknown : ∀ x ∈ xs, ∃ p, ctx.points[x.1]? = some p) :
    ((ctx.offers xs).forM ctx.admits, ctx.receive count
        ((ctx.offers xs).takeWhile fun x => (ctx.admits x).isOk)) = (.error e, ctx') ↔
      ∃ before, ctx.StopsAfter xs before e ∧ ctx' = ctx.receive count before := by
  have hreceived {before after : List (Nat × Sample)} {x : Nat × Sample}
      (hoffers : ctx.offers xs = before ++ x :: after)
      (hbefore : ∀ y ∈ before, ctx.admits y = .ok ⟨⟩) (hx : ctx.admits x = .error e) :
      (ctx.offers xs).takeWhile (fun x => (ctx.admits x).isOk) = before := by
    rw [hoffers, List.takeWhile_append_of_pos fun y hy => by rw [hbefore y hy]; rfl,
      List.takeWhile_cons_of_neg (by simp [hx]), List.append_nil]
  rw [Prod.mk.injEq, forM_eq_error_iff]
  constructor
  · rintro ⟨⟨before, ⟨d, t⟩, after, hoffers, hbefore, hx⟩, rfl⟩
    have hmem : (d, t) ∈ ctx.offers xs := by simp [hoffers]
    obtain ⟨i, hi, hbelow⟩ := mem_offers hmem
    obtain ⟨p, hp⟩ := hknown _ hi
    obtain ⟨q, hq⟩ := h.exists_of_isBelow hp hbelow
    have hrefuses : q.Refuses ctx.scope t e :=
      Point.admits_eq_error_iff.mp (admits_some hq t ▸ hx)
    exact ⟨before, ⟨hbefore, d, t, after, q, hoffers, hq, hrefuses⟩,
      by rw [hreceived hoffers hbefore hx]⟩
  · rintro ⟨before, ⟨hbefore, d, t, after, q, hoffers, hq, hrefuses⟩, rfl⟩
    have hx : ctx.admits (d, t) = .error e := by
      rw [admits_some hq, Point.admits_eq_error_iff.mpr hrefuses]
    exact ⟨⟨before, (d, t), after, hoffers, hbefore, hx⟩, by rw [hreceived hoffers hbefore hx]⟩

/-- The first offer is made to the point that the first sample is added to. -/
theorem offers_cons (hp : ∃ p, ctx.points[id]? = some p) (s : Sample) (xs : List (Nat × Sample)) :
    ∃ more, ctx.offers ((id, s) :: xs) = (id, s) :: more := by
  obtain ⟨p, hp⟩ := hp
  have hlt := lt_of_point hp
  obtain ⟨n, hn⟩ : ∃ n, ctx.points.length = n + 1 := ⟨ctx.points.length - 1, by omega⟩
  rw [offers, List.flatMap_cons, offered, hn, offeredWithin]
  exact ⟨_, rfl⟩

/-- A point that refuses the sample added to it is the first to be asked. -/
theorem StopsAfter.of_refuses {p : Point} (hp : ctx.points[id]? = some p)
    (h : p.Refuses ctx.scope s e) (xs : List (Nat × Sample)) :
    ctx.StopsAfter ((id, s) :: xs) [] e := by
  obtain ⟨more, hmore⟩ := offers_cons ⟨p, hp⟩ s xs
  exact ⟨by simp, id, s, more, p, hmore, hp, h⟩

theorem Attained.add_eq_error_iff (h : ctx.Attained) {p : Point} (hp : ctx.points[id]? = some p) :
    (add id s count).exec ctx = (.error e, ctx') ↔
      ∃ before, ctx.StopsAfter [(id, s)] before e ∧ ctx' = ctx.receive count before := by
  have hknown : ∀ x ∈ [(id, s)], ∃ p, ctx.points[x.1]? = some p := by simp [hp]
  have hone : exec ([(id, s)].forM fun x => add x.1 x.2 count) ctx =
      (add id s count).exec ctx := by simp [List.forM]
  rw [← hone, h.exec_adds hknown]
  exact h.wellFormed.isForest.stopsAfter_iff hknown

theorem Attained.addAndFlow_eq_error_iff (h : ctx.Attained) {p : Point}
    (hp : ctx.points[id]? = some p) :
    (addAndFlow id s count).exec ctx = (.error e, ctx') ↔
      ∃ before, ctx.StopsAfter (ctx.deliveries id p s) before e ∧
        ctx' = ctx.receive count before := by
  rw [h.exec_addAndFlow hp]
  exact h.wellFormed.isForest.stopsAfter_iff (h.exists_of_mem_deliveries hp s)

/-! ## What is left of a failed request -/

/-- Some samples that were received leave no trace exactly if no point took one. -/
theorem receive_eq_self_iff (hcount : 0 < count) (offers : List (Nat × Sample)) :
    ctx.receive count offers = ctx ↔
      ∀ x ∈ offers, ∀ q, ctx.points[x.1]? = some q → q.selects x.2 = false := by
  constructor
  · -- a point that took one of them has counted it
    intro h x hx q hq
    have hget := getElem?_receive ctx count offers x.1
    rw [h, hq, Option.map_some, Option.some.injEq] at hget
    have hsamples := congrArg Point.samples hget
    rw [Point.samples_takingAll] at hsamples
    by_contra hselects
    have htook : (x.2, count) ∈ q.share x.1 count offers :=
      List.mem_map.mpr ⟨x, List.mem_filter.mpr ⟨hx, by simpa using hselects⟩, rfl⟩
    have htotal := le_total_of_mem htook
    omega
  · intro h
    refine Eq.trans ?_ (receive_nil ctx count)
    refine congrArg (fun points => { ctx with points }) (List.ext_getElem? fun i => ?_)
    refine (getElem?_receive ctx count offers i).trans
      (Eq.trans (Option.map_congr fun q hq => ?_) (getElem?_receive ctx count [] i).symm)
    have hnone : q.share i count offers = [] := by
      simp only [Point.share, List.map_eq_nil_iff, List.filter_eq_nil_iff]
      rintro x hx hboth
      simp only [Bool.and_eq_true, decide_eq_true_eq] at hboth
      obtain ⟨rfl, hselects⟩ := hboth
      rw [h x hx q hq] at hselects
      cases hselects
    rw [hnone]
    rfl

/-- If children have the variables of their parents and every point is ready, then a sample that
fits the point it is added to is refused by none. -/
theorem Mirrored.not_stopsAfter (h : ctx.Mirrored) (hready : ∀ q ∈ ctx.points, q.IsReady)
    {xs before : List (Nat × Sample)}
    (hfits : ∀ x ∈ xs, ∃ p, ctx.points[x.1]? = some p ∧ x.2.size = p.catalog.slotCount) :
    ¬ctx.StopsAfter xs before e := by
  rintro ⟨-, d, t, after, q, hoffers, hq, hrefuses⟩
  have hmem : (d, t) ∈ ctx.offers xs := by simp [hoffers]
  obtain ⟨i, hi, hbelow⟩ := mem_offers hmem
  obtain ⟨p, hp, hsize⟩ := hfits _ hi
  have hcatalog : q.catalog = p.catalog := by
    rcases hbelow with rfl | hd
    · rw [hp] at hq
      cases hq
      rfl
    · exact (h.mirrors_of_descends hd hp hq).catalog
  refine (hready q (List.mem_of_getElem? hq)).size_ne hrefuses ?_
  rw [hcatalog]
  exact hsize

/-- Every point is ready if none has slices before it has opened them all. -/
theorem Attained.isReady (h : ctx.Attained)
    (hopen : ∀ q ∈ ctx.points, q.viewsOpen ∨ q.slices = []) : ∀ q ∈ ctx.points, q.IsReady := by
  intro q hq
  obtain ⟨d, hd⟩ := List.getElem?_of_mem hq
  cases hviews : q.viewsOpen with
  | true => exact .inl hviews
  | false =>
    have hslices : q.slices = [] := by simpa [hviews] using hopen q hq
    exact .inr ⟨hslices, h.opensFirst hd hviews, hviews⟩

/-- What flows on fits the points that it flows to. -/
theorem Attained.fits_deliveries (h : ctx.Attained) {p : Point} (hp : ctx.points[id]? = some p)
    (hsize : s.size = p.catalog.slotCount) :
    ∀ x ∈ ctx.deliveries id p s, ∃ q, ctx.points[x.1]? = some q ∧
      x.2.size = q.catalog.slotCount := by
  intro x hx
  rcases List.mem_cons.mp hx with rfl | hx
  · exact ⟨p, hp, hsize⟩
  · obtain ⟨e, he, rfl⟩ := List.mem_map.mp hx
    obtain ⟨q, hq⟩ := h.exists_target hp he
    refine ⟨q, hq, ?_⟩
    simp only [hq, Option.elim]
    exact e.size_carry p.catalog q.catalog s

/-- **A request stops at the first refusal and leaves what it did.** A request that adds a sample, or
lets it flow on, fails exactly if one of the points that the sample is offered to refuses it. What
was offered before has been received, and that changes nothing exactly if no point took it. So a
request changes nothing if it fails at a point that does not exist or that refuses the sample itself;
and it fails nowhere else if children have the variables of their parents and no point has slices
before it has opened them all. -/
theorem stops_at_refusal (h : ctx.Attained) (id : Nat) (s : Sample) (count : Nat) :
    (ctx.points[id]? = none → (add id s count).exec ctx = (.error .unknownPoint, ctx) ∧
      (addAndFlow id s count).exec ctx = (.error .unknownPoint, ctx)) ∧
    ∀ p, ctx.points[id]? = some p →
      (∀ e ctx', (add id s count).exec ctx = (.error e, ctx') ↔
        ∃ before, ctx.StopsAfter [(id, s)] before e ∧ ctx' = ctx.receive count before) ∧
      (∀ e ctx', (addAndFlow id s count).exec ctx = (.error e, ctx') ↔
        ∃ before, ctx.StopsAfter (ctx.deliveries id p s) before e ∧
          ctx' = ctx.receive count before) ∧
      (∀ before, 0 < count → (ctx.receive count before = ctx ↔
        ∀ x ∈ before, ∀ q, ctx.points[x.1]? = some q → q.selects x.2 = false)) ∧
      (∀ e, p.Refuses ctx.scope s e → (add id s count).exec ctx = (.error e, ctx) ∧
        (addAndFlow id s count).exec ctx = (.error e, ctx)) ∧
      (ctx.Mirrored → (∀ q ∈ ctx.points, q.viewsOpen ∨ q.slices = []) → ∀ e ctx',
        (add id s count).exec ctx = (.error e, ctx') ∨
          (addAndFlow id s count).exec ctx = (.error e, ctx') →
        p.Refuses ctx.scope s e ∧ ctx' = ctx) := by
  refine ⟨fun hp => ⟨?_, ?_⟩, fun p hp => ?_⟩
  · simp [add, point, exec_bind, hp]
  · simp [addAndFlow, add, point, exec_bind, hp]
  have hrefused (e : Error) (hrefuses : p.Refuses ctx.scope s e) :
      (add id s count).exec ctx = (.error e, ctx) ∧
        (addAndFlow id s count).exec ctx = (.error e, ctx) :=
    ⟨(h.add_eq_error_iff hp).mpr ⟨[], .of_refuses hp hrefuses [], (receive_nil ctx count).symm⟩,
      (h.addAndFlow_eq_error_iff hp).mpr
        ⟨[], .of_refuses hp hrefuses _, (receive_nil ctx count).symm⟩⟩
  refine ⟨fun e ctx' => h.add_eq_error_iff hp, fun e ctx' => h.addAndFlow_eq_error_iff hp,
    fun before hcount => receive_eq_self_iff hcount before, hrefused,
    fun hmirrored hopen e ctx' hfail => ?_⟩
  have hready := h.isReady hopen
  -- whatever else was added, the sample does not fit its point
  by_cases hsize : s.size = p.catalog.slotCount
  · rcases hfail with hfail | hfail
    · obtain ⟨before, hstops, -⟩ := (h.add_eq_error_iff hp).mp hfail
      refine absurd hstops (hmirrored.not_stopsAfter hready fun x hx => ?_)
      obtain rfl := List.mem_singleton.mp hx
      exact ⟨p, hp, hsize⟩
    · obtain ⟨before, hstops, -⟩ := (h.addAndFlow_eq_error_iff hp).mp hfail
      exact absurd hstops (hmirrored.not_stopsAfter hready (h.fits_deliveries hp hsize))
  · have hrefuses : p.Refuses ctx.scope s _ := .arity hsize
    obtain ⟨hadd', hflow'⟩ := hrefused _ hrefuses
    rw [hadd', hflow'] at hfail
    rcases hfail with hfail | hfail <;> cases hfail <;> exact ⟨hrefuses, rfl⟩

/-- A point is split, and an invariant is put into a slice of its second child by hand. -/
def filledChild : List Action :=
  [.addPoint "P" [{ name := "x", type := .int }], .split 0 [.compare "x" .gt 0],
    .atPoint 2 (.addInvariant [0] (.bound { side := .lower }))]

/-- The point and its first child have been offered the sample when the second child refuses it. -/
theorem stops_at_refusal_filledChild :
    let ctx := standard.after filledChild
    let s : Sample := ⟨[some ⟨.int 1, true⟩]⟩
    (∃ e, (add 0 s 1).exec ctx = (.error e, ctx.receive 1 [(0, s), (1, s)])) ∧
      ctx.receive 1 [(0, s), (1, s)] ≠ ctx ∧
      ∃ e, (add 0 ⟨[]⟩ 1).exec ctx = (.error e, ctx) := by
  intro ctx s
  obtain ⟨p, hp, hpair⟩ := Option.map_eq_some_iff.mp
    (show ctx.points[0]?.map (fun p => (p.selects s, p.catalog.slotCount)) = some (true, 1) by
      decide +kernel)
  obtain ⟨hselects, hcount⟩ := Prod.mk.inj hpair
  obtain ⟨q, hq, hclosed⟩ := Option.map_eq_some_iff.mp
    (show ctx.points[2]?.map (fun q => (q.admits ctx.scope s).isOk) = some false by
      decide +kernel)
  obtain ⟨-, hstops⟩ := stops_at_refusal ⟨standard, filledChild, rfl, rfl⟩ 0 s 1
  obtain ⟨hadd, -, hsame, -, -⟩ := hstops p hp
  obtain ⟨e, he⟩ : ∃ e, q.admits ctx.scope s = .error e := by
    cases hadmits : q.admits ctx.scope s with
    | error e => exact ⟨e, rfl⟩
    | ok u => simp [hadmits] at hclosed
  have hoffers : ctx.offers [(0, s)] = [(0, s), (1, s)] ++ (2, s) :: [] := by decide +kernel
  have hadmitted : ∀ x ∈ [(0, s), (1, s)], ctx.admits x = .ok ⟨⟩ := by decide +kernel
  refine ⟨⟨e, (hadd e _).mpr ⟨_, ⟨hadmitted, 2, s, [], q, hoffers, hq, ?_⟩, rfl⟩⟩, fun heq => ?_, ?_⟩
  · exact Point.admits_eq_error_iff.mp he
  · have hnone := (hsame _ Nat.one_pos).mp heq (0, s) List.mem_cons_self p hp
    rw [hselects] at hnone
    cases hnone
  · obtain ⟨-, hstops'⟩ := stops_at_refusal ⟨standard, filledChild, rfl, rfl⟩ 0 ⟨[]⟩ 1
    obtain ⟨-, -, -, hrefused, -⟩ := hstops' p hp
    have harity : p.Refuses ctx.scope ⟨[]⟩ _ := .arity (by rw [hcount]; decide)
    exact ⟨_, (hrefused _ harity).1⟩

/-- A request that fails has fed a point. -/
theorem failed_add_feeds :
    let s : Sample := ⟨[some ⟨.int 1, true⟩]⟩
    ((add 0 s 1).exec (standard.after filledChild)).1 =
        .error (.duplicateSlice "P;condition=\"x > 0\"" [0]) ∧
      (standard.after filledChild).points.map (fun p => (p.samples, p.slices.length, p.viewsOpen)) =
        [(0, 0, false), (0, 0, false), (0, 1, false)] ∧
      ((add 0 s 1).exec (standard.after filledChild)).2.points.map (fun p =>
        (p.samples, p.slices.length, p.viewsOpen)) =
          [(1, 1, true), (0, 0, false), (0, 1, false)] := by
  decide +kernel

end Context

end LikelyInvariants
