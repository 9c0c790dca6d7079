import LikelyInvariants.Proofs.Family
import LikelyInvariants.Proofs.Implication.Contrast
import LikelyInvariants.Proofs.Invariant.Exclusion
import LikelyInvariants.Proofs.Point.Numbers
import LikelyInvariants.Proofs.Point.Soundness

/-!
# Implications are true

An implication is built from what two children found out, and it is about the samples of both. Each
child answers for its own samples: what it reports is true of them. For the samples of the other
child the rival answers: it is true of those, so the predicate is false of them. Hence a term that
has a rival **tells** the samples of its child from those of the other one (`Context.Tells`), and
an implication from such a term is true of all samples. If its consequent has a rival too, so is
the converse (`Context.implications_sound_after`).

That rivals are about the same values is what the names are for: the children have the same
variables, and where no name occurs twice, slices over the same names are over the same variables.
-/

namespace LikelyInvariants

open Contrast

/-! ## What terms say -/

section Terms

/-- Whether a sample has all the variables of a term, with no NaN among their values. -/
def Context.Covers (ctx : Context) (x : Sample) : TermSource → Prop
  | .invariant i id => ∃ p key inv t, ctx.points[i]? = some p ∧
      p.invariant? id = some (key, inv) ∧ p.catalog.project? key x = some t ∧
      ∀ v ∈ t.values, v.hasNaN = false
  | .condition i => ∃ p parent s polarity, ctx.points[i]? = some p ∧
      p.kind = .conditional parent s polarity ∧ (s.evaluate? p.catalog x).isSome

/-- Whether a term is true of a sample. -/
def Context.IsTrueOf (ctx : Context) (x : Sample) : TermSource → Prop
  | .invariant i id => ∃ p key inv t, ctx.points[i]? = some p ∧
      p.invariant? id = some (key, inv) ∧ p.catalog.project? key x = some t ∧ inv.Holds t.values
  | .condition i => ∃ p parent s polarity, ctx.points[i]? = some p ∧
      p.kind = .conditional parent s polarity ∧ s.evaluate? p.catalog x = some polarity

end Terms

/-! ## What a point knows -/

section Observing

def Happening.isTaken : Happening → Bool
  | took _ _ => true
  | _ => false

/-- Whether the views of a point were opened once, over the whole catalog, and nothing was put into
its slices by hand. The views may not be open yet. -/
def isUndisturbed (hs : List Happening) : Bool :=
  match hs.filter Happening.fills with
  | [] => true
  | .opened _ _ min :: rest => min = 0 && rest.all Happening.isTaken
  | _ => false

theorem taken_filter (hs : List Happening) : taken (hs.filter Happening.fills) = taken hs := by
  unfold taken
  rw [List.filterMap_filter]
  congr 1
  funext h
  cases h <;> rfl

theorem eq_map_of_all_isTaken {hs : List Happening} (h : hs.all Happening.isTaken) :
    hs = (taken hs).map Happening.ofSample := by
  induction hs with
  | nil => rfl
  | cons k hs ih =>
    rw [List.all_cons, Bool.and_eq_true] at h
    cases k with
    | took s count => exact congrArg (Happening.took s count :: ·) (ih h.2)
    | _ => simp [Happening.isTaken] at h

/-- The life of an undisturbed point, apart from slices that were opened or closed by hand. -/
theorem of_isUndisturbed {hs : List Happening} (h : isUndisturbed hs) :
    hs.filter Happening.fills = [] ∨ ∃ before scope, hs.filter Happening.fills =
      .opened before scope 0 :: (taken hs).map Happening.ofSample := by
  rw [← taken_filter]
  unfold isUndisturbed at h
  split at h
  · next hnone => exact .inl hnone
  · next before scope min rest hlife =>
    simp only [Bool.and_eq_true, decide_eq_true_eq] at h
    obtain ⟨rfl, hrest⟩ := h
    rw [hlife]
    exact .inr ⟨before, scope, congrArg _ (eq_map_of_all_isTaken hrest)⟩
  · cases h

theorem not_filled_of_isUndisturbed {hs : List Happening} (h : isUndisturbed hs) (vars : List Nat)
    (inv : Invariant) : .filled vars inv ∉ hs := by
  intro hmem
  have hfills : .filled vars inv ∈ hs.filter Happening.fills := List.mem_filter.mpr ⟨hmem, rfl⟩
  rcases of_isUndisturbed h with hnone | ⟨before, scope, hlife⟩
  · simp [hnone] at hfills
  · rw [hlife] at hfills
    simp [Happening.ofSample] at hfills

/-- What a point reports is true of some samples, which it selects. -/
structure Context.Observes (ctx : Context) (c : Nat × Point) (log : List (Sample × Nat)) :
    Prop where
  point : ctx.points[c.1]? = some c.2
  numbered : c.2.Numbered
  keys : ∀ s ∈ c.2.slices, ∀ e ∈ s.entries, ∀ i ∈ s.key, i < c.2.catalog.size
  holds : ∀ s ∈ c.2.slices, ∀ e ∈ s.entries, ∀ x ∈ log, ∀ t,
    c.2.catalog.project? s.key x.1 = some t → (∀ v ∈ t.values, v.hasNaN = false) →
      e.inv.Holds t.values
  selects : ∀ x ∈ log, c.2.selects x.1

theorem Point.Traces.lt_of_mem_key {q before : Point} {scope : Scope} {log : List (Sample × Nat)}
    (h : q.Traces before scope log) {s : Slice} (hs : s ∈ q.slices) {e : SliceEntry}
    (he : e ∈ s.entries) :
    ∀ i ∈ s.key, i < q.catalog.size := by
  obtain ⟨inv, hcandidate, -⟩ := h.entries s hs e he
  unfold Scope.candidates at hcandidate
  split at hcandidate
  · next hkey =>
    rw [← h.catalog] at hkey
    exact Catalog.lt_of_mem_viewKeys hkey.1
  · simp at hcandidate

/-- A point whose life was undisturbed answers for the samples it took. -/
theorem Context.observes_after {ctx : Context} (hempty : ctx.points = []) {acts : List Action}
    {id : Nat} {q : Point} (hq : (ctx.after acts).points[id]? = some q)
    (hlife : isUndisturbed (ctx.happenings acts id)) :
    (ctx.after acts).Observes (id, q) (taken (ctx.happenings acts id)) := by
  obtain ⟨p, hfresh, hsteps⟩ := steps_after hempty acts hq
  have hnumbered := hsteps.numbered hfresh (not_filled_of_isUndisturbed hlife)
  rcases of_isUndisturbed hlife with hnone | ⟨before, scope, hlife⟩
  · have hentries := hsteps.entries_eq_nil hfresh hnone
    rw [← taken_filter, hnone]
    refine ⟨hq, hnumbered, fun s hs e he => ?_, fun s hs e he => ?_, by simp [taken]⟩ <;>
      simp [hentries s hs] at he
  · have htraces := hsteps.traces hfresh hlife
    refine ⟨hq, hnumbered, fun s hs e he => ?_, fun s hs e he x hx t ht hnan => ?_, ?_⟩
    · exact htraces.lt_of_mem_key hs he
    · exact htraces.holds hs he hx ht hnan
    · exact htraces.selects

namespace Context.Observes

variable {ctx : Context} {c : Nat × Point} {log : List (Sample × Nat)} {s : Slice} {e : SliceEntry}
  {x : Sample}

theorem isTrueOf_iff (h : ctx.Observes c log) (hs : s ∈ c.2.slices) (he : e ∈ s.entries) :
    ctx.IsTrueOf x (.invariant c.1 e.id) ↔
      ∃ t, c.2.catalog.project? s.key x = some t ∧ e.inv.Holds t.values := by
  have hinv := Point.invariant?_of_mem h.numbered hs he
  constructor
  · rintro ⟨p, key, inv, t, hp, hinv', ht, hholds⟩
    rw [h.point] at hp
    cases hp
    rw [hinv] at hinv'
    cases hinv'
    exact ⟨t, ht, hholds⟩
  · rintro ⟨t, ht, hholds⟩
    exact ⟨c.2, s.key, e.inv, t, h.point, hinv, ht, hholds⟩

theorem covers_iff (h : ctx.Observes c log) (hs : s ∈ c.2.slices) (he : e ∈ s.entries) :
    ctx.Covers x (.invariant c.1 e.id) ↔
      ∃ t, c.2.catalog.project? s.key x = some t ∧ ∀ v ∈ t.values, v.hasNaN = false := by
  have hinv := Point.invariant?_of_mem h.numbered hs he
  constructor
  · rintro ⟨p, key, inv, t, hp, hinv', ht, hnan⟩
    rw [h.point] at hp
    cases hp
    rw [hinv] at hinv'
    cases hinv'
    exact ⟨t, ht, hnan⟩
  · rintro ⟨t, ht, hnan⟩
    exact ⟨c.2, s.key, e.inv, t, h.point, hinv, ht, hnan⟩

/-- What a point reports is true of its samples. -/
theorem isTrueOf_of_owns (h : ctx.Observes c log) {a : TermSource} (howns : Owns c a)
    {x : Sample × Nat} (hx : x ∈ log) (hcovers : ctx.Covers x.1 a) : ctx.IsTrueOf x.1 a := by
  obtain ⟨hs, he⟩ := howns
  obtain ⟨t, ht, hnan⟩ := (h.covers_iff hs he).mp hcovers
  exact (h.isTrueOf_iff hs he).mpr ⟨t, ht, h.holds _ hs _ he x hx t ht hnan⟩

/-- The condition of a child is true of its samples. -/
theorem isTrueOf_condition (h : ctx.Observes c log) {parent : Nat} {splitter : Splitter}
    {polarity : Bool} (hkind : c.2.kind = .conditional parent splitter polarity)
    {x : Sample × Nat} (hx : x ∈ log) : ctx.IsTrueOf x.1 (.condition c.1) := by
  have hselects := h.selects x hx
  simp only [Point.selects, hkind, decide_eq_true_eq] at hselects
  exact ⟨c.2, parent, splitter, polarity, h.point, hkind, hselects⟩

end Context.Observes

end Observing

/-! ## The two children of a condition -/

section Halves

namespace Context

/-- The two children of a condition, each with the samples it answers for. -/
structure Halves (ctx : Context) (l r : Nat × Point) (lefts rights : List (Sample × Nat)) :
    Prop where
  left : ctx.Observes l lefts
  right : ctx.Observes r rights
  kinds : ∃ parent s polarity, l.2.kind = .conditional parent s polarity ∧
    r.2.kind = .conditional parent s !polarity
  catalog : l.2.catalog = r.2.catalog
  names : (l.2.catalog.vars.map (·.name)).Nodup

/-- A term that is true of some samples and false of others. -/
structure Tells (ctx : Context) (own other : List (Sample × Nat)) (a : TermSource) : Prop where
  own : ∀ x ∈ own, ctx.Covers x.1 a → ctx.IsTrueOf x.1 a
  other : ∀ x ∈ other, ctx.Covers x.1 a → ¬ctx.IsTrueOf x.1 a

variable {ctx : Context} {l r : Nat × Point} {lefts rights own other : List (Sample × Nat)}
  {a b : TermSource}

namespace Halves

/-- Slices over the same names are over the same variables. -/
theorem key_eq (h : ctx.Halves l r lefts rights) {s t : Slice} {e f : SliceEntry}
    (hs : s ∈ l.2.slices) (he : e ∈ s.entries) (ht : t ∈ r.2.slices) (hf : f ∈ t.entries)
    (hnames : l.2.catalog.names s.key = r.2.catalog.names t.key) : s.key = t.key := by
  have ht := h.right.keys t ht f hf
  rw [← h.catalog] at hnames ht
  exact Catalog.key_eq_of_names_eq h.names (h.left.keys s hs e he) ht hnames

/-- Rivals have the same variables. -/
theorem covers_iff (h : ctx.Halves l r lefts rights) (hrivals : Rivals l r a b) {x : Sample} :
    ctx.Covers x a ↔ ctx.Covers x b := by
  cases hrivals with
  | invariants hs he ht hf hnames =>
    rw [h.left.covers_iff hs he, h.right.covers_iff ht hf, h.key_eq hs he ht hf hnames, h.catalog]
  | conditions =>
    obtain ⟨parent, s, polarity, hl, hr⟩ := h.kinds
    constructor
    · rintro ⟨p, _, _, _, hp, hkind, hdecided⟩
      rw [h.left.point] at hp
      cases hp
      rw [hl] at hkind
      cases hkind
      exact ⟨r.2, parent, s, !polarity, h.right.point, hr, by rwa [← h.catalog]⟩
    · rintro ⟨p, _, _, _, hp, hkind, hdecided⟩
      rw [h.right.point] at hp
      cases hp
      rw [hr] at hkind
      cases hkind
      exact ⟨l.2, parent, s, polarity, h.left.point, hl, by rwa [h.catalog]⟩

/-- Rivals are not both true. -/
theorem not_both (h : ctx.Halves l r lefts rights) (hrivals : Rivals l r a b) {x : Sample}
    (ha : ctx.IsTrueOf x a) : ¬ctx.IsTrueOf x b := by
  intro hb
  cases hrivals with
  | invariants hs he ht hf hnames hexcludes =>
    obtain ⟨u, hu, hholds⟩ := (h.left.isTrueOf_iff hs he).mp ha
    obtain ⟨v, hv, hholds'⟩ := (h.right.isTrueOf_iff ht hf).mp hb
    rw [h.key_eq hs he ht hf hnames, h.catalog, hv] at hu
    cases hu
    exact Invariant.not_holds_of_excludes hexcludes hholds hholds'
  | conditions =>
    obtain ⟨parent, s, polarity, hl, hr⟩ := h.kinds
    obtain ⟨p, _, _, _, hp, hkind, hleft⟩ := ha
    obtain ⟨q, _, _, _, hq, hkind', hright⟩ := hb
    rw [h.left.point] at hp
    rw [h.right.point] at hq
    cases hp
    cases hq
    rw [hl] at hkind
    rw [hr] at hkind'
    cases hkind
    cases hkind'
    rw [h.catalog, hright] at hleft
    cases polarity <;> cases hleft

/-- Each of two rivals is true of the samples of its child. -/
theorem holds (h : ctx.Halves l r lefts rights) (hrivals : Rivals l r a b) :
    (∀ x ∈ lefts, ctx.Covers x.1 a → ctx.IsTrueOf x.1 a) ∧
      ∀ x ∈ rights, ctx.Covers x.1 b → ctx.IsTrueOf x.1 b := by
  cases hrivals with
  | invariants hs he ht hf =>
    exact ⟨fun x hx => h.left.isTrueOf_of_owns (.invariant hs he) hx,
      fun x hx => h.right.isTrueOf_of_owns (.invariant ht hf) hx⟩
  | conditions =>
    obtain ⟨parent, s, polarity, hl, hr⟩ := h.kinds
    exact ⟨fun x hx _ => h.left.isTrueOf_condition hl hx,
      fun x hx _ => h.right.isTrueOf_condition hr hx⟩

/-- Rivals tell the samples of their children apart. -/
theorem tells (h : ctx.Halves l r lefts rights) (hrivals : Rivals l r a b) :
    ctx.Tells lefts rights a ∧ ctx.Tells rights lefts b := by
  obtain ⟨hleft, hright⟩ := h.holds hrivals
  refine ⟨⟨hleft, fun x hx hcovers ha => ?_⟩, hright, fun x hx hcovers hb => ?_⟩
  · exact h.not_both hrivals ha (hright x hx ((h.covers_iff hrivals).mp hcovers))
  · exact h.not_both hrivals (hleft x hx ((h.covers_iff hrivals).mpr hcovers)) hb

end Halves

/-- What a term implies that tells the samples apart. -/
theorem Tells.implies (ha : ctx.Tells own other a)
    (hb : ∀ x ∈ own, ctx.Covers x.1 b → ctx.IsTrueOf x.1 b) {x : Sample × Nat}
    (hx : x ∈ own ∨ x ∈ other) (hcovers : ctx.Covers x.1 a) (hcovers' : ctx.Covers x.1 b) :
    (ctx.IsTrueOf x.1 a → ctx.IsTrueOf x.1 b) ∧
      (ctx.Tells own other b → ctx.IsTrueOf x.1 b → ctx.IsTrueOf x.1 a) := by
  rcases hx with hx | hx
  · exact ⟨fun _ => hb x hx hcovers', fun _ _ => ha.own x hx hcovers⟩
  · exact ⟨fun htrue => absurd htrue (ha.other x hx hcovers),
      fun hb htrue => absurd htrue (hb.other x hx hcovers')⟩

/-- The implications from the two children of a condition are true of the samples of both. -/
theorem Halves.sound (h : ctx.Halves l r lefts rights) {imp : Implication}
    (himp : imp ∈ (ofChildren l r).implications) {x : Sample × Nat} (hx : x ∈ lefts ++ rights)
    (hpredicate : ctx.Covers x.1 imp.predicate.source)
    (hconsequent : ctx.Covers x.1 imp.consequent.source) :
    (ctx.IsTrueOf x.1 imp.predicate.source → ctx.IsTrueOf x.1 imp.consequent.source) ∧
      (imp.iff → ctx.IsTrueOf x.1 imp.consequent.source →
        ctx.IsTrueOf x.1 imp.predicate.source) := by
  have hx := List.mem_append.mp hx
  obtain ⟨pair, hpair, y, hy, ⟨hsource, hside, hiff⟩ | ⟨hsource, hside, hiff⟩⟩ :=
    of_mem_implications himp
  · have htells := (h.tells (rivals_of_mem_exclusive hpair)).1
    rw [← hsource] at htells
    have howns := (owns_of_mem_oneSided hy).1 _ hside
    obtain ⟨hforth, hback⟩ := htells.implies
      (fun x hx => h.left.isTrueOf_of_owns howns hx) hx hpredicate hconsequent
    refine ⟨hforth, fun h' => hback ?_⟩
    obtain ⟨z, hz, hsame⟩ := hiff.mp h'
    rw [← hsame]
    exact (h.tells (rivals_of_mem_exclusive hz)).1
  · have htells := (h.tells (rivals_of_mem_exclusive hpair)).2
    rw [← hsource] at htells
    have howns := (owns_of_mem_oneSided hy).2 _ hside
    obtain ⟨hforth, hback⟩ := htells.implies
      (fun x hx => h.right.isTrueOf_of_owns howns hx) hx.symm hpredicate hconsequent
    refine ⟨hforth, fun h' => hback ?_⟩
    obtain ⟨z, hz, hsame⟩ := hiff.mp h'
    rw [← hsame]
    exact (h.tells (rivals_of_mem_exclusive hz)).2

end Context

end Halves

/-! ## Sessions -/

/-- **Implications are true of the samples that either child took.** After every session, for the
two children of a condition, whose views were opened once, over the whole catalog, and into whose
slices nothing was put by hand: where a sample has all the variables of both sides of an
implication, none of the values being a NaN, the predicate implies the consequent, and the two are
equivalent if the implication says so. -/
theorem Context.implications_sound_after {ctx : Context} (hempty : ctx.points = [])
    {acts : List Action} {l r parent : Nat} {p q : Point} {s : Splitter} {polarity : Bool}
    (hp : (ctx.after acts).points[l]? = some p) (hq : (ctx.after acts).points[r]? = some q)
    (hkind : p.kind = .conditional parent s polarity)
    (hkind' : q.kind = .conditional parent s !polarity)
    (hnames : (p.catalog.vars.map (·.name)).Nodup)
    (hleft : isUndisturbed (ctx.happenings acts l))
    (hright : isUndisturbed (ctx.happenings acts r))
    {imp : Implication} (himp : imp ∈ (ofChildren (l, p) (r, q)).implications)
    {x : Sample × Nat}
    (hx : x ∈ taken (ctx.happenings acts l) ++ taken (ctx.happenings acts r))
    (hpredicate : (ctx.after acts).Covers x.1 imp.predicate.source)
    (hconsequent : (ctx.after acts).Covers x.1 imp.consequent.source) :
    ((ctx.after acts).IsTrueOf x.1 imp.predicate.source →
        (ctx.after acts).IsTrueOf x.1 imp.consequent.source) ∧
      (imp.iff → (ctx.after acts).IsTrueOf x.1 imp.consequent.source →
        (ctx.after acts).IsTrueOf x.1 imp.predicate.source) := by
  have hhalves : (ctx.after acts).Halves (l, p) (r, q) (taken (ctx.happenings acts l))
      (taken (ctx.happenings acts r)) :=
    { left := observes_after hempty hp hleft
      right := observes_after hempty hq hright
      kinds := ⟨parent, s, polarity, hkind, hkind'⟩
      catalog := (wellFormed_after hempty acts).catalog_eq_of_halves hp hq hkind hkind'
      names := hnames }
  exact hhalves.sound himp hx hpredicate hconsequent

/-! ## A split with a constant that is a NaN -/

section NaN

/-- A context that looks for values only. -/
def Context.ofValues : Context := { Context.standard with factories := .ofKinds [.oneOf] }

/-- A constant that is a NaN, and an observed variable. -/
def nanVars : List Declaration :=
  [{ name := "K", type := .float, constant := some (.float ⟨0x7ff8000000000000⟩) },
    { name := "x", type := .int }]

/-- A point with these variables is split, and each child takes a sample. -/
def nanSplit : List Action :=
  [.addPoint "P" nanVars, .split 0 [.compare "x" .gt 0], .add 0 ⟨[some ⟨.int 1, true⟩]⟩ 3,
    .add 0 ⟨[some ⟨.int (-1), true⟩]⟩ 3]

/-- The slice of the constant after three samples. -/
def nanSlice : Slice where
  key := [0]
  entries := [⟨0, .oneOf ⟨.float, [.float ⟨0x7ff8000000000000⟩], 3⟩⟩]
  samples := 3

/-- The slice of one variable after some values. -/
def valueSlice (i : Nat) (values : List Int64) (samples : Nat) : Slice where
  key := [i]
  entries := [⟨i, .oneOf ⟨.int, values.map .int, samples⟩⟩]
  samples := samples

/-- A child of the point. -/
def nanChild (polarity : Bool) (n : Int64) : Point where
  name := childName "P" (.compare "x" .gt 0) polarity
  kind := .conditional 0 (.compare "x" .gt 0) polarity
  catalog := .ofList nanVars
  slices := [nanSlice, valueSlice 1 [n] 3]
  samples := 3
  viewsOpen := true
  nextId := 2

theorem points_nanSplit :
    (Context.ofValues.after nanSplit).points[1]? = some (nanChild false (-1)) ∧
      (Context.ofValues.after nanSplit).points[2]? = some (nanChild true 1) := by
  constructor <;> decide +kernel

/-- In each child the condition, and also the value of the constant, is found to be equivalent to
the value of the variable. -/
theorem implications_nanSplit :
    (ofChildren (1, nanChild false (-1)) (2, nanChild true 1)).implications.map
        (fun i => (i.predicate.source, i.consequent.source, i.iff)) =
      [(.condition 1, .invariant 1 1, true), (.condition 2, .invariant 2 1, true),
        (.invariant 1 0, .invariant 1 1, true), (.invariant 2 0, .invariant 2 1, true)] := by
  have hslices : matchSlices (nanChild false (-1)) (nanChild true 1) =
      [(some ⟨["K"], nanSlice⟩, some ⟨["K"], nanSlice⟩),
        (some ⟨["x"], valueSlice 1 [-1] 3⟩, some ⟨["x"], valueSlice 1 [1] 3⟩)] :=
    matchBy_of_keys [["K"], ["x"]] (by decide +kernel) (by decide +kernel)
  unfold ofChildren
  simp only [hslices, List.map_cons, List.map_nil, ofSlices]
  rw [matchBy_of_keys [⟨["K"], some ⟨.oneOf, "NaN"⟩⟩]
    (by decide +kernel) (by decide +kernel)]
  rw [matchBy_of_keys [⟨["x"], some ⟨.oneOf, "-1"⟩⟩, ⟨["x"], some ⟨.oneOf, "1"⟩⟩]
    (by decide +kernel) (by decide +kernel)]
  decide +kernel

/-- An implication that is found, by its terms. -/
theorem exists_implication_nanSplit (a b : TermSource) (iff : Bool)
    (h : (a, b, iff) ∈ [(.condition 1, .invariant 1 1, true), (.condition 2, .invariant 2 1, true),
      (.invariant 1 0, .invariant 1 1, true), (.invariant 2 0, .invariant 2 1, true)]) :
    ∃ imp ∈ (ofChildren (1, nanChild false (-1)) (2, nanChild true 1)).implications,
      imp.predicate.source = a ∧ imp.consequent.source = b ∧ imp.iff = iff := by
  rw [← implications_nanSplit] at h
  obtain ⟨imp, himp, heq⟩ := List.mem_map.mp h
  simp only [Prod.mk.injEq] at heq
  exact ⟨imp, himp, heq⟩

/-- The condition and the value of the variable are equivalent on both samples. -/
theorem Context.implications_sound_after_nanSplit :
    let ctx := ofValues.after nanSplit
    ∃ imp ∈ (ofChildren (1, nanChild false (-1)) (2, nanChild true 1)).implications,
      imp.predicate.source = .condition 1 ∧ imp.consequent.source = .invariant 1 1 ∧ imp.iff ∧
      ∀ n : Int64, n = 1 ∨ n = -1 →
        (ctx.IsTrueOf ⟨[some ⟨.int n, true⟩]⟩ (.condition 1) →
          ctx.IsTrueOf ⟨[some ⟨.int n, true⟩]⟩ (.invariant 1 1)) ∧
        (ctx.IsTrueOf ⟨[some ⟨.int n, true⟩]⟩ (.invariant 1 1) →
          ctx.IsTrueOf ⟨[some ⟨.int n, true⟩]⟩ (.condition 1)) := by
  obtain ⟨imp, himp, hpredicate, hconsequent, hiff⟩ :=
    exists_implication_nanSplit (.condition 1) (.invariant 1 1) true (by simp)
  obtain ⟨hleft, hright⟩ := points_nanSplit
  refine ⟨imp, himp, hpredicate, hconsequent, hiff, fun n hn => ?_⟩
  have hx : ((⟨[some ⟨.int n, true⟩]⟩, 3) : Sample × Nat) ∈
      taken (ofValues.happenings nanSplit 1) ++ taken (ofValues.happenings nanSplit 2) := by
    rcases hn with rfl | rfl <;> decide +kernel
  have hsound := implications_sound_after rfl hleft hright rfl rfl (by decide +kernel)
    (by decide +kernel) (by decide +kernel) himp hx
  rw [hpredicate, hconsequent] at hsound
  obtain ⟨hforth, hback⟩ := hsound
    ⟨_, 0, .compare "x" .gt 0, false, hleft, rfl, by rcases hn with rfl | rfl <;> decide +kernel⟩
    ⟨_, [1], .oneOf ⟨.int, [.int (-1)], 3⟩, ⟨[.int n], .modified⟩, hleft, by decide +kernel, rfl,
      by simp [Value.hasNaN]⟩
  exact ⟨hforth, hback hiff⟩

/-- The equivalence of constant and variable is false of a sample without a NaN, in which both have
values: the constant differs from itself. -/
theorem Context.nan_constant_implication_unsound :
    let ctx := ofValues.after nanSplit
    let x : Sample := ⟨[some ⟨.int (-1), true⟩]⟩
    ctx.points[1]? = some (nanChild false (-1)) ∧ ctx.points[2]? = some (nanChild true 1) ∧
      (nanVars.map (·.name)).Nodup ∧
      isUndisturbed (ofValues.happenings nanSplit 1) ∧
      isUndisturbed (ofValues.happenings nanSplit 2) ∧
      (x, 3) ∈ taken (ofValues.happenings nanSplit 1) ∧
      ((nanChild false (-1)).catalog.project? [0, 1] x).isSome ∧
      ∃ imp ∈ (ofChildren (1, nanChild false (-1)) (2, nanChild true 1)).implications,
        imp.iff ∧ ctx.IsTrueOf x imp.consequent.source ∧ ¬ctx.IsTrueOf x imp.predicate.source := by
  obtain ⟨hleft, hright⟩ := points_nanSplit
  refine ⟨hleft, hright, by decide, by decide +kernel, by decide +kernel, by decide +kernel, rfl,
    ?_⟩
  obtain ⟨imp, himp, hpredicate, hconsequent, hiff⟩ := exists_implication_nanSplit
    (.invariant 1 0) (.invariant 1 1) true (by simp)
  refine ⟨imp, himp, hiff, ?_, ?_⟩
  · rw [hconsequent]
    refine ⟨_, [1], .oneOf ⟨.int, [.int (-1)], 3⟩, ⟨[.int (-1)], .modified⟩, hleft,
      by decide +kernel, rfl, .int (-1), [], rfl, by decide⟩
  · rw [hpredicate]
    rintro ⟨p, key, inv, t, hp, hinv, ht, hholds⟩
    rw [hleft] at hp
    cases hp
    have hfound : (nanChild false (-1)).invariant? 0 =
        some ([0], .oneOf ⟨.float, [.float ⟨0x7ff8000000000000⟩], 3⟩) := by decide +kernel
    rw [hfound] at hinv
    cases hinv
    cases ht
    obtain ⟨v, rest, hv, hamong⟩ := hholds
    cases hv
    exact absurd hamong (by decide)

end NaN

end LikelyInvariants
