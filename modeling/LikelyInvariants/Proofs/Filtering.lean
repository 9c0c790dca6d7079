import LikelyInvariants.Proofs.Intake
import LikelyInvariants.Proofs.Mirror

/-!
# A child is its parent, filtered

A sample that is added to a point goes down the tree of its descendants as far as the conditions
select it. No two branches meet, so every point on the way takes the sample once, and all others
stay as they are (`Context.feeds_add`). What a descendant makes of a run of samples is therefore
what a point of its own makes of those that fulfil every condition on the way to it
(`Context.filtered_after`).
-/

namespace LikelyInvariants

open Update

namespace Context

variable {ctx ctx' : Context} {s : Sample} {count : Nat}

/-! ## The tree -/

section Tree

theorem Mirrored.mirrors_of_isBelow (h : ctx.Mirrored) {i d : Nat} {p q : Point}
    (hp : ctx.points[i]? = some p) (hd : ctx.IsBelow i d) (hq : ctx.points[d]? = some q) :
    q.Mirrors p := by
  rcases hd with rfl | hd
  · rw [hp] at hq
    cases hq
    exact .refl p
  · exact h.mirrors_of_descends hd hp hq

end Tree

/-! ## The way of a sample -/

section Reaches

/-- A sample gets to a child exactly by its parent, if the child selects it. -/
theorem Mirrored.reaches_child_iff (h : ctx.Mirrored) {i j c : Nat} {p q : Point}
    (hbelow : ctx.IsBelow i j) (hp : ctx.points[j]? = some p) (hc : c ∈ p.children)
    (hq : ctx.points[c]? = some q) :
    ctx.Reaches s i c ↔ ctx.Reaches s i j ∧ q.selects s := by
  constructor
  · intro hreach
    have hlt := h.isForest.lt_of_mem_children hp hc
    have hle := h.isForest.le_of_isBelow hbelow
    obtain ⟨q', hq', hs, rfl | ⟨k, r, hk, hr, hc'⟩⟩ := hreach.last
    · omega
    · obtain rfl := h.isForest.parent_unique hp hr hc hc'
      rw [hq] at hq'
      cases hq'
      exact ⟨hk, hs⟩
  · rintro ⟨hreach, hs⟩
    exact hreach.snoc hp hc hq hs

end Reaches

/-! ## Feeding the tree -/

section Feeding

/-- Some points take a sample, and the others stay as they are. -/
structure Feeds (ctx : Context) (s : Sample) (count : Nat) (takes : Nat → Prop) (ctx' : Context) :
    Prop where
  steady : Moves Point.Steady ctx ctx'
  taken : ∀ d, takes d → ctx'.points[d]? = ctx.points[d]?.map (Point.taking ctx.scope s count)
  left : ∀ d, ¬takes d → ctx'.points[d]? = ctx.points[d]?

theorem Feeds.back {takes : Nat → Prop} (k : ctx.Feeds s count takes ctx') :
    Moves Point.Steady ctx' ctx := k.steady.symm Point.steady_symm

theorem Feeds.refl {takes : Nat → Prop} (h : ∀ d, ¬takes d) : ctx.Feeds s count takes ctx :=
  ⟨moves_refl Point.steady_refl ctx, fun d hd => absurd hd (h d), fun _ _ => rfl⟩

/-- The points that a sample reaches take it when it is offered. -/
theorem feeds_receive (h : ctx.IsForest) (s : Sample) (count i : Nat) :
    ctx.Feeds s count (ctx.Reaches s i) (ctx.receive count ((ctx.offered s i).map (·, s))) := by
  have hshare (d : Nat) (q : Point) :
      q.share d count ((ctx.offered s i).map (·, s)) =
        if d ∈ ctx.offered s i ∧ q.selects s then [(s, count)] else [] := by
    rw [Point.share_map (h.nodup_offered s i)]
    simp
  refine ⟨(moves_receive ctx count _).mono fun _ _ => Point.Sliced.steady, fun d hd => ?_,
    fun d hd => ?_⟩ <;> rw [getElem?_receive]
  · obtain ⟨q, hq, hs, -⟩ := hd.last
    rw [hq, Option.map_some, hshare, if_pos ((h.mem_offered hq).mpr hd)]
    rfl
  · cases hq : ctx.points[d]? with
    | none => rfl
    | some q =>
      rw [Option.map_some, hshare, if_neg (mt (h.mem_offered hq).mp hd)]
      rfl

/-- The points below a point are ready for samples. -/
def IsReadyBelow (ctx : Context) (i : Nat) : Prop :=
  ∀ d q, ctx.IsBelow i d → ctx.points[d]? = some q → q.IsReady

theorem Feeds.isReadyBelow {takes : Nat → Prop} (k : ctx.Feeds s count takes ctx') {i : Nat}
    (h : ctx.IsReadyBelow i) : ctx'.IsReadyBelow i := by
  intro d q hd hq
  obtain ⟨p, hp, -⟩ := k.steady.source hq
  have hready := h d p (hd.moves (k.back.mono fun _ _ => Point.Steady.kin)) hp
  by_cases ht : takes d
  · have htaken := k.taken d ht
    rw [hq, hp] at htaken
    cases htaken
    exact .inl Point.viewsOpen_taking
  · have hleft := k.left d ht
    rw [hq, hp] at hleft
    cases hleft
    exact hready

/-- A sample that is added to a point is taken by the points it reaches, unless it does not fit the
variables. -/
theorem feeds_add {i : Nat} {p : Point} (h : ctx.Mirrored) (hp : ctx.points[i]? = some p)
    (hready : ctx.IsReadyBelow i) : ctx.Feeds s count
      (fun d => s.size = p.catalog.slotCount ∧ ctx.Reaches s i d) ((add i s count).exec ctx).2 := by
  have hoffered {x : Nat × Sample} (hx : x ∈ (ctx.offered s i).map (·, s)) :
      ∃ q, ctx.points[x.1]? = some q ∧ q.Mirrors p ∧ q.IsReady ∧ x.2 = s := by
    obtain ⟨d, hd, rfl⟩ := List.mem_map.mp hx
    have hbelow := isBelow_of_mem_offeredWithin hd
    obtain ⟨q, hq⟩ := h.isForest.exists_of_isBelow hp hbelow
    exact ⟨q, hq, h.mirrors_of_isBelow hp hbelow hq, hready d q hbelow hq, rfl⟩
  have hopens : ctx.OpensFirst ((ctx.offered s i).map (·, s)) := by
    intro x hx q hq
    obtain ⟨q', hq', -, hready', -⟩ := hoffered hx
    rw [hq] at hq'
    cases hq'
    exact hready'.opensFirst
  rw [exec_add hp, exec_offers _ count hopens]
  by_cases hsize : s.size = p.catalog.slotCount
  · have hall : ∀ x ∈ (ctx.offered s i).map (·, s), (ctx.admits x).isOk := by
      intro x hx
      obtain ⟨q, hq, hmirrors, hready', rfl⟩ := hoffered hx
      have harity : q.checkArity x.2 = .ok () := by
        rw [Point.checkArity, if_pos (by rw [hmirrors.catalog]; exact hsize)]
      rw [show x = (x.1, x.2) from rfl, admits_some hq, hready'.admits harity]
      rfl
    rw [List.takeWhile_eq_self_iff.mpr hall]
    simpa only [hsize, true_and] using feeds_receive h.isForest s count i
  · -- the point itself does not admit the sample
    obtain ⟨n, hn⟩ : ∃ n, ctx.points.length = n + 1 :=
      ⟨ctx.points.length - 1, by have hlt := lt_of_point hp; omega⟩
    have hfirst : (ctx.admits (i, s)).isOk = false := by
      rw [admits_some hp]
      simp [Point.admits, Point.checkArity, hsize]
    rw [offered, hn, offeredWithin, List.map_cons, List.takeWhile_cons, hfirst]
    simp only [Bool.false_eq_true, if_false, receive_nil]
    exact .refl fun d hd => hsize hd.1

end Feeding

end Context

/-! ## The conditions on the way -/

/-- Whether the conditions turn out on a sample as they should. -/
def Sample.follows (c : Catalog) (path : List (Splitter × Bool)) (s : Sample) : Bool :=
  path.all fun x => x.1.evaluate? c s = some x.2

/-- Whether a sample fits the catalog and follows a path. -/
def Sample.isAccepted (c : Catalog) (path : List (Splitter × Bool)) (s : Sample) : Bool :=
  s.size = c.slotCount && s.follows c path

theorem Sample.follows_snoc {c : Catalog} {path : List (Splitter × Bool)} {t : Splitter}
    {polarity : Bool} {s : Sample} : s.follows c (path ++ [(t, polarity)]) ↔
      s.follows c path ∧ t.evaluate? c s = some polarity := by
  simp [follows]

/-- A condition does not turn out both ways. -/
theorem Sample.not_follows_both {c : Catalog} {path : List (Splitter × Bool)} {t : Splitter}
    (s : Sample) : ¬(s.follows c (path ++ [(t, false)]) ∧ s.follows c (path ++ [(t, true)])) := by
  rintro ⟨hfalse, htrue⟩
  have hnot := (Sample.follows_snoc.mp hfalse).2
  rw [(Sample.follows_snoc.mp htrue).2] at hnot
  cases hnot

/-- The samples that a point accepts are divided among the two children of a condition and those on
which it is undecided. -/
theorem total_accepted (c : Catalog) (path : List (Splitter × Bool)) (t : Splitter)
    (log : List (Sample × Nat)) :
    total (log.filter (·.1.isAccepted c path)) =
      total (log.filter (·.1.isAccepted c (path ++ [(t, false)]))) +
        total (log.filter (·.1.isAccepted c (path ++ [(t, true)]))) +
        total (log.filter fun x => x.1.isAccepted c path && (t.evaluate? c x.1).isNone) := by
  have hsnoc (polarity : Bool) (s : Sample) : s.isAccepted c (path ++ [(t, polarity)]) =
      (s.isAccepted c path && decide (t.evaluate? c s = some polarity)) := by
    simp [Sample.isAccepted, Sample.follows, Bool.and_assoc]
  induction log with
  | nil => rfl
  | cons x log ih =>
    simp only [hsnoc] at ih ⊢
    cases haccepted : x.1.isAccepted c path with
    | false => simpa [haccepted] using ih
    | true =>
      rcases hdecided : t.evaluate? c x.1 with - | (- | -) <;>
        simp [haccepted, hdecided] <;> omega

namespace Context

variable {ctx ctx' : Context}

section Routes

/-- The conditions on the way from a point to one below it. -/
inductive Route (ctx : Context) (root : Nat) : Nat → List (Splitter × Bool) → Prop
  | here : Route ctx root root []
  | child {i c : Nat} {p q : Point} {t : Splitter} {polarity : Bool}
      {path : List (Splitter × Bool)} (h : Route ctx root i path) (hp : ctx.points[i]? = some p)
      (hc : c ∈ p.children) (hq : ctx.points[c]? = some q)
      (hkind : q.kind = .conditional i t polarity) : Route ctx root c (path ++ [(t, polarity)])

variable {root d : Nat} {path : List (Splitter × Bool)}

theorem Route.isBelow (h : ctx.Route root d path) : ctx.IsBelow root d := by
  induction h with
  | here => exact .inl rfl
  | child _ hp hc _ _ ih =>
    rcases ih with rfl | hd
    · exact .inr (.child hp hc)
    · exact .inr (hd.snoc hp hc)

theorem Route.extend (h : ctx.Mirrored) {i : Nat} (hroute : ctx.Route root i path)
    (hd : ctx.Descends i d) : ∃ path, ctx.Route root d path := by
  induction hd generalizing path with
  | child hp hc =>
    obtain ⟨q, t, polarity, hq, hkind⟩ := h.child hp hc
    exact ⟨_, hroute.child hp hc hq hkind⟩
  | step hp hc _ ih =>
    obtain ⟨q, t, polarity, hq, hkind⟩ := h.child hp hc
    exact ih (hroute.child hp hc hq hkind)

theorem Mirrored.exists_route (h : ctx.Mirrored) (hd : ctx.IsBelow root d) :
    ∃ path, ctx.Route root d path := by
  rcases hd with rfl | hd
  · exact ⟨[], .here⟩
  · exact Route.extend h .here hd

theorem Route.moves (h : ctx.Route root d path) (k : Moves Point.Steady ctx ctx') :
    ctx'.Route root d path := by
  induction h with
  | here => exact .here
  | child _ hp hc hq hkind ih =>
    obtain ⟨p', hp', hpp⟩ := k.point hp
    obtain ⟨q', hq', hqq⟩ := k.point hq
    exact ih.child hp' (hpp.children ▸ hc) hq' (hqq.kind.trans hkind)

/-- A sample that is added to a point at the top level gets to those below whose conditions it
fulfils. -/
theorem Mirrored.reaches_iff_follows (h : ctx.Mirrored) {p : Point} {s : Sample}
    (hp : ctx.points[root]? = some p) (htop : p.kind = .topLevel)
    (hroute : ctx.Route root d path) : ctx.Reaches s root d ↔ s.follows p.catalog path := by
  induction hroute with
  | here =>
    refine ⟨fun _ => rfl, fun _ => .here hp ?_⟩
    rw [Point.selects, htop]
  | @child i c r q t polarity path hroute hr hc hq hkind ih =>
    have hbelow := hroute.isBelow
    have hcatalog := (h.mirrors_of_isBelow hp (hroute.child hr hc hq hkind).isBelow hq).catalog
    have hselects : q.selects s ↔ t.evaluate? p.catalog s = some polarity := by
      rw [Point.selects, hkind, hcatalog, decide_eq_true_eq]
    rw [h.reaches_child_iff hbelow hr hc hq, ih, hselects, Sample.follows_snoc]

end Routes

/-! ## Runs of samples -/

section Runs

/-- The requests to add some samples to a point. -/
def adds (id : Nat) (log : List (Sample × Nat)) : List Action :=
  log.map fun x => .add id x.1 x.2

variable {root d : Nat} {p : Point} {path : List (Splitter × Bool)}

/-- A point takes, of the samples that are added to one above it, those that follow the way to
it. -/
theorem points_after_adds (h : ctx.Mirrored) (hp : ctx.points[root]? = some p)
    (htop : p.kind = .topLevel) (hready : ctx.IsReadyBelow root) (hroute : ctx.Route root d path)
    (log : List (Sample × Nat)) : (ctx.after (adds root log)).points[d]? =
      ctx.points[d]?.map
        (Point.takingAll ctx.scope (log.filter (·.1.isAccepted p.catalog path))) := by
  induction log generalizing ctx p with
  | nil => exact Option.map_id'.symm
  | cons x log ih =>
    obtain ⟨s, count⟩ := x
    have hfed : ctx.Feeds s count _ ((add root s count).exec ctx).2 := feeds_add h hp hready
    obtain ⟨p₁, hp₁, hsteady⟩ := hfed.steady.point hp
    have hrest := ih (h.moves hfed.steady) hp₁ (hsteady.kind.trans htop)
      (hfed.isReadyBelow hready) (hroute.moves hfed.steady)
    rw [hsteady.catalog, hfed.steady.scope] at hrest
    have haccepted : s.isAccepted p.catalog path = true ↔
        s.size = p.catalog.slotCount ∧ ctx.Reaches s root d := by
      rw [h.reaches_iff_follows hp htop hroute, Sample.isAccepted, Bool.and_eq_true,
        decide_eq_true_eq]
    refine hrest.trans ?_
    by_cases htakes : s.size = p.catalog.slotCount ∧ ctx.Reaches s root d
    · simp only [hfed.taken d htakes, List.filter_cons, haccepted.mpr htakes, if_true,
        Option.map_map]
      rfl
    · have hrefused : s.isAccepted p.catalog path = false :=
        Bool.eq_false_iff.mpr fun ht => htakes (haccepted.mp ht)
      simp only [hfed.left d htakes, List.filter_cons, hrefused, Bool.false_eq_true, if_false]

theorem mirrored_single {p : Point} (hchildren : p.children = []) (h : ctx.points = [p]) :
    ctx.Mirrored := by
  have hsingle {i : Nat} {q : Point} (hq : ctx.points[i]? = some q) : q = p := by
    rw [h, List.getElem?_singleton] at hq
    split at hq <;> cases hq
    rfl
  refine ⟨fun hp hc => ?_, fun hp => ?_, fun hp hc => ?_⟩
  · rw [hsingle hp, hchildren] at hc
    cases hc
  · rw [hsingle hp, hchildren]
    exact List.pairwise_singleton _ _
  · rw [hsingle hp, hchildren] at hc
    cases hc

/-- A point of its own takes, of the samples that follow a path, those that fit its variables. -/
theorem points_after_adds_alone {alone : Point} (hkind : alone.kind = .topLevel)
    (hchildren : alone.children = []) (hready : alone.IsReady) (log : List (Sample × Nat)) :
    (({ ctx with points := [alone] } : Context).after
      (adds 0 (log.filter (·.1.follows alone.catalog path)))).points[0]? =
        some (alone.takingAll ctx.scope (log.filter (·.1.isAccepted alone.catalog path))) := by
  have hmirrored : ({ ctx with points := [alone] } : Context).Mirrored :=
    mirrored_single hchildren rfl
  have hbelow : ({ ctx with points := [alone] } : Context).IsReadyBelow 0 := by
    intro d q _ hq
    obtain ⟨-, rfl⟩ : d = 0 ∧ alone = q := by
      rw [List.getElem?_singleton] at hq
      split at hq <;> cases hq
      exact ⟨‹_›, rfl⟩
    exact hready
  have hafter := points_after_adds hmirrored rfl hkind hbelow .here
    (log.filter (·.1.follows alone.catalog path))
  have hfilter : (log.filter (·.1.follows alone.catalog path)).filter
      (·.1.isAccepted alone.catalog []) = log.filter (·.1.isAccepted alone.catalog path) := by
    rw [List.filter_filter]
    refine List.filter_congr fun x _ => ?_
    simp [Sample.isAccepted, Sample.follows]
  rw [hafter, hfilter]
  rfl

section Untouched

variable (h : ctx.Mirrored) (hp : ctx.points[root]? = some p) (htop : p.kind = .topLevel)
  (huntouched : ∀ d q, ctx.IsBelow root d → ctx.points[d]? = some q → q.IsUntouched)

include h hp htop huntouched

/-- Below an untouched point every point takes the samples that follow the way to it. -/
theorem taken_after_adds (hroute : ctx.Route root d path) (log : List (Sample × Nat)) :
    ∃ q, ctx.points[d]? = some q ∧ q.IsUntouched ∧ (ctx.after (adds root log)).points[d]? =
      some (q.takingAll ctx.scope (log.filter (·.1.isAccepted p.catalog path))) := by
  obtain ⟨q, hq⟩ := h.isForest.exists_of_isBelow hp hroute.isBelow
  have hready : ctx.IsReadyBelow root := fun d q hd hq => .inr (huntouched d q hd hq).toIsFresh
  refine ⟨q, hq, huntouched d q hroute.isBelow hq, ?_⟩
  rw [points_after_adds h hp htop hready hroute log, hq, Option.map_some]

/-- The samples of a point are those of its two children for a condition and those on which the
condition is undecided. -/
theorem samples_after_adds {i l r : Nat} {t : Splitter} (hi : ctx.Route root i path)
    (hl : ctx.Route root l (path ++ [(t, false)])) (hr : ctx.Route root r (path ++ [(t, true)]))
    (log : List (Sample × Nat)) : ∃ m q q', (ctx.after (adds root log)).points[i]? = some m ∧
      (ctx.after (adds root log)).points[l]? = some q ∧
      (ctx.after (adds root log)).points[r]? = some q' ∧
      m.samples = q.samples + q'.samples + total (log.filter fun x =>
        x.1.isAccepted p.catalog path && (t.evaluate? p.catalog x.1).isNone) := by
  obtain ⟨m, -, hm, hafterm⟩ := taken_after_adds h hp htop huntouched hi log
  obtain ⟨q, -, hq, hafterq⟩ := taken_after_adds h hp htop huntouched hl log
  obtain ⟨q', -, hq', hafterq'⟩ := taken_after_adds h hp htop huntouched hr log
  refine ⟨_, _, _, hafterm, hafterq, hafterq', ?_⟩
  rw [Point.samples_takingAll, Point.samples_takingAll, Point.samples_takingAll, hm.samples,
    hq.samples, hq'.samples, total_accepted p.catalog path t log]
  omega

end Untouched

/-- **A descendant is its ancestor, filtered.** Samples are added to a point at the top level. Each
point below it makes of them what a point of its own, with the same variables, makes of those that
fulfil the conditions on the way. So a point has taken what its two children for a condition have
taken, and the samples it accepted on which the condition is undecided; no sample gets to both. -/
theorem filtered_after (hreachable : ctx.Reachable) (hp : ctx.points[root]? = some p)
    (htop : p.kind = .topLevel)
    (huntouched : ∀ d q, d = root ∨ d ∈ ctx.descendants root → ctx.points[d]? = some q →
      q.IsUntouched ∧ ctx.controlled q = ctx.controlled p)
    {name : String} (halone : ctx.controlled { name, catalog := p.catalog } = ctx.controlled p)
    (log : List (Sample × Nat)) :
    (∀ d, d = root ∨ d ∈ ctx.descendants root → ∃ path q q', ctx.Route root d path ∧
      (ctx.after (adds root log)).points[d]? = some q ∧
      (({ ctx with points := [{ name, catalog := p.catalog }] } : Context).after
        (adds 0 (log.filter (·.1.follows p.catalog path)))).points[0]? = some q' ∧
      q'.Agrees q) ∧
    ∀ i l r t, i = root ∨ i ∈ ctx.descendants root →
      ctx.points[l]?.map Point.kind = some (.conditional i t false) →
      ctx.points[r]?.map Point.kind = some (.conditional i t true) →
      ∃ path m q q', ctx.Route root i path ∧ ctx.Route root l (path ++ [(t, false)]) ∧
        ctx.Route root r (path ++ [(t, true)]) ∧
        (ctx.after (adds root log)).points[i]? = some m ∧
        (ctx.after (adds root log)).points[l]? = some q ∧
        (ctx.after (adds root log)).points[r]? = some q' ∧
        m.samples = q.samples + q'.samples + total (log.filter fun x =>
          x.1.isAccepted p.catalog path && (t.evaluate? p.catalog x.1).isNone) ∧
        ∀ s : Sample, ¬(s.follows p.catalog (path ++ [(t, false)]) ∧
          s.follows p.catalog (path ++ [(t, true)])) := by
  have hmirrored := hreachable.mirrored
  have hall : ∀ d q, ctx.IsBelow root d → ctx.points[d]? = some q → q.IsUntouched :=
    fun d q hd hq => (huntouched d q (hd.imp_right hmirrored.isForest.mem_descendants.mpr) hq).1
  constructor
  · intro d hd
    obtain ⟨path, hroute⟩ :=
      hmirrored.exists_route (hd.imp_right hmirrored.isForest.mem_descendants.mp)
    obtain ⟨q, hq, huntouched', hafter⟩ := taken_after_adds hmirrored hp htop hall hroute log
    have hown : ({ name, catalog := p.catalog } : Point).IsUntouched := ⟨⟨rfl, rfl, rfl⟩, rfl⟩
    have hcatalog := (hmirrored.mirrors_of_isBelow hp hroute.isBelow hq).catalog
    have hcontrolled : ctx.controlled q = ctx.controlled { name, catalog := p.catalog } :=
      (huntouched d q hd hq).2.trans halone.symm
    refine ⟨path, _, _, hroute, hafter, points_after_adds_alone rfl rfl (.inr hown.toIsFresh) log,
      ?_⟩
    exact (hown.agrees huntouched' hcatalog).takingAll (fun _ => hcontrolled) _
  · intro i l r t hi hl hr
    obtain ⟨path, hroute⟩ :=
      hmirrored.exists_route (hi.imp_right hmirrored.isForest.mem_descendants.mp)
    have hchild {c : Nat} {polarity : Bool}
        (hc : ctx.points[c]?.map Point.kind = some (.conditional i t polarity)) :
        ctx.Route root c (path ++ [(t, polarity)]) := by
      obtain ⟨q, hq, hkind⟩ := Option.map_eq_some_iff.mp hc
      obtain ⟨parent, hparent, hmem, -⟩ := hreachable.wellFormed.parent hq hkind
      exact hroute.child hparent hmem hq hkind
    obtain ⟨m, q, q', hm, hq, hq', hsum⟩ :=
      samples_after_adds hmirrored hp htop hall hroute (hchild hl) (hchild hr) log
    exact ⟨path, m, q, q', hroute, hchild hl, hchild hr, hm, hq, hq', hsum,
      fun s => Sample.not_follows_both s⟩

/-- A point is split, and so is its second child. -/
def twoConditions : List Action :=
  [.addPoint "P" [{ name := "x", type := .int }], .split 0 [.compare "x" .gt 0],
    .split 2 [.compare "x" .gt 5]]

/-- The variable has three values and is missing once. -/
def fourSamples : List (Sample × Nat) :=
  [(⟨[some ⟨.int 7, true⟩]⟩, 1), (⟨[some ⟨.int 1, true⟩]⟩, 2), (⟨[some ⟨.int (-3), true⟩]⟩, 1),
    (⟨[none]⟩, 1)]

/-- One sample gets to the second child of the second child. Of the five that the point takes, one
gets to its first child, three to its second child and one to neither. -/
theorem filtered_after_twoConditions :
    let ctx := standard.after twoConditions
    let c := Catalog.ofList [{ name := "x", type := .int }]
    let fed := ctx.after (adds 0 fourSamples)
    (∃ path q q', ctx.Route 0 4 path ∧ fed.points[4]? = some q ∧
      (({ ctx with points := [{ name := "Q", catalog := c }] } : Context).after
        (adds 0 (fourSamples.filter (·.1.follows c path)))).points[0]? = some q' ∧
      q'.Agrees q ∧ q.samples = 1) ∧
    ∃ path m q q', ctx.Route 0 0 path ∧ fed.points[0]? = some m ∧ fed.points[1]? = some q ∧
      fed.points[2]? = some q' ∧ m.samples = 5 ∧ q.samples = 1 ∧ q'.samples = 3 ∧
      total (fourSamples.filter fun x => x.1.isAccepted c path &&
        ((Splitter.compare "x" .gt 0).evaluate? c x.1).isNone) = 1 := by
  intro ctx c fed
  have hreachable : ctx.Reachable := .after (.start rfl) (by decide)
  have hcontrolled : ctx.controlled = fun _ _ => false :=
    congrArg Scope.controlled (scope_after standard twoConditions)
  have hfirst : ctx.points[0]?.map (fun p => (p.kind, p.catalog)) = some (.topLevel, c) := by
    decide +kernel
  obtain ⟨p, hp, hpair⟩ := Option.map_eq_some_iff.mp hfirst
  obtain ⟨htop, hcatalog⟩ := Prod.mk.inj hpair
  have hall : ∀ q ∈ ctx.points, q.slices = [] ∧ q.samples = 0 ∧ q.viewsOpen = false ∧
      q.nextId = 0 := by decide +kernel
  have huntouched : ∀ d q, d = 0 ∨ d ∈ ctx.descendants 0 → ctx.points[d]? = some q →
      q.IsUntouched ∧ ctx.controlled q = ctx.controlled p := by
    intro d q _ hq
    obtain ⟨hslices, hsamples, hopen, hid⟩ := hall q (List.mem_of_getElem? hq)
    exact ⟨⟨⟨hslices, hsamples, hopen⟩, hid⟩, by rw [hcontrolled]⟩
  have halone : ctx.controlled { name := "Q", catalog := p.catalog } = ctx.controlled p := by
    rw [hcontrolled]
  obtain ⟨hagrees, hdivided⟩ := filtered_after hreachable hp htop huntouched halone fourSamples
  have hsamples : fed.points.map (·.samples) = [5, 1, 3, 2, 1] := by decide +kernel
  have hget {d : Nat} {q : Point} (hq : fed.points[d]? = some q) :
      [5, 1, 3, 2, 1][d]? = some q.samples := by
    rw [← hsamples, List.getElem?_map, hq, Option.map_some]
  rw [hcatalog] at hagrees hdivided
  constructor
  · obtain ⟨path, q, q', hroute, hq, hq', hagree⟩ := hagrees 4 (.inr (by decide +kernel))
    exact ⟨path, q, q', hroute, hq, hq', hagree, (Option.some.inj (hget hq)).symm⟩
  · obtain ⟨path, m, q, q', hroute, -, -, hm, hq, hq', hsum, -⟩ :=
      hdivided 0 1 2 (.compare "x" .gt 0) (.inl rfl) (by decide +kernel) (by decide +kernel)
    have hm₅ := Option.some.inj (hget hm)
    have hq₁ := Option.some.inj (hget hq)
    have hq₃ := Option.some.inj (hget hq')
    exact ⟨path, m, q, q', hroute, hm, hq, hq', hm₅.symm, hq₁.symm, hq₃.symm, by omega⟩

end Runs

end Context

end LikelyInvariants
