import LikelyInvariants.Proofs.Requests

/-!
# The forest of points

A child knows its parent and comes after it and after the children before. So the points are a
forest whose numbers ascend on every way down: the search for descendants is not cut short
(`Context.IsForest.mem_descendants`), and no two branches meet (`Context.IsForest.children_apart`).
-/

namespace LikelyInvariants

/-- A change that leaves the name and the relatives of a point alone. -/
structure Point.Kin (p q : Point) : Prop where
  name : q.name = p.name
  kind : q.kind = p.kind
  children : q.children = p.children

theorem Point.kin_refl (p : Point) : Kin p p := ⟨rfl, rfl, rfl⟩

theorem Point.kin_trans (p q r : Point) (h : Kin p q) (k : Kin q r) : Kin p r :=
  ⟨k.name.trans h.name, k.kind.trans h.kind, k.children.trans h.children⟩

theorem Point.Akin.kin {p q : Point} (h : Akin p q) : Kin p q := ⟨h.name, h.kind, h.children⟩

theorem Point.Steady.kin {p q : Point} (h : Steady p q) : Kin p q := h.akin.kin

namespace Context

variable {ctx ctx' : Context}

/-! ## Descendants -/

section Descends

theorem mem_descendantsWithin_succ {generations id d : Nat} :
    d ∈ ctx.descendantsWithin (generations + 1) id ↔
      ∃ p c, ctx.points[id]? = some p ∧ c ∈ p.children ∧
        (d = c ∨ d ∈ ctx.descendantsWithin generations c) := by
  rw [descendantsWithin]
  cases ctx.points[id]? <;> simp

/-- A point is reached from another by going to children. -/
inductive Descends (ctx : Context) : Nat → Nat → Prop
  | child {i c : Nat} {p : Point} (hp : ctx.points[i]? = some p) (hc : c ∈ p.children) :
      Descends ctx i c
  | step {i c d : Nat} {p : Point} (hp : ctx.points[i]? = some p) (hc : c ∈ p.children)
      (h : Descends ctx c d) : Descends ctx i d

theorem Descends.snoc {i d c : Nat} {p : Point} (h : ctx.Descends i d)
    (hp : ctx.points[d]? = some p) (hc : c ∈ p.children) : ctx.Descends i c := by
  induction h with
  | child hi hd => exact .step hi hd (.child hp hc)
  | step hi hj _ ih => exact .step hi hj (ih hp)

/-- The last step to a descendant. -/
theorem Descends.last {i d : Nat} (h : ctx.Descends i d) :
    ∃ j p, (j = i ∨ ctx.Descends i j) ∧ ctx.points[j]? = some p ∧ d ∈ p.children := by
  induction h with
  | @child i c p hp hc => exact ⟨i, p, .inl rfl, hp, hc⟩
  | @step i c d p hp hc _ ih =>
    obtain ⟨j, q, rfl | hj, hq, hd⟩ := ih
    · exact ⟨j, q, .inr (.child hp hc), hq, hd⟩
    · exact ⟨j, q, .inr (.step hp hc hj), hq, hd⟩

theorem descends_of_mem_descendantsWithin {generations i d : Nat}
    (h : d ∈ ctx.descendantsWithin generations i) : ctx.Descends i d := by
  induction generations generalizing i with
  | zero => simp [descendantsWithin] at h
  | succ generations ih =>
    obtain ⟨p, c, hp, hc, rfl | hd⟩ := mem_descendantsWithin_succ.mp h
    · exact .child hp hc
    · exact .step hp hc (ih hd)

/-- A point lies below another, or is the other. -/
def IsBelow (ctx : Context) (i d : Nat) : Prop := d = i ∨ ctx.Descends i d

theorem IsBelow.of_child {i c d : Nat} {p : Point} (hp : ctx.points[i]? = some p)
    (hc : c ∈ p.children) (hd : ctx.IsBelow c d) : ctx.Descends i d := by
  rcases hd with rfl | hd
  · exact .child hp hc
  · exact .step hp hc hd

theorem Descends.moves {i d : Nat} (h : ctx.Descends i d) (k : Moves Point.Kin ctx ctx') :
    ctx'.Descends i d := by
  induction h with
  | child hp hc =>
    obtain ⟨q, hq, hpq⟩ := k.point hp
    exact .child hq (hpq.children ▸ hc)
  | step hp hc _ ih =>
    obtain ⟨q, hq, hpq⟩ := k.point hp
    exact .step hq (hpq.children ▸ hc) ih

theorem IsBelow.moves {i d : Nat} (h : ctx.IsBelow i d) (k : Moves Point.Kin ctx ctx') :
    ctx'.IsBelow i d := by
  rcases h with rfl | h
  · exact .inl rfl
  · exact .inr (h.moves k)

end Descends

/-! ## Forests -/

/-- Every child knows its parent, comes after it and after the children before. -/
structure IsForest (ctx : Context) : Prop where
  child : ∀ {i c : Nat} {p : Point}, ctx.points[i]? = some p → c ∈ p.children →
    ∃ (q : Point) (s : Splitter) (polarity : Bool),
      ctx.points[c]? = some q ∧ q.kind = .conditional i s polarity
  ascending : ∀ {i : Nat} {p : Point}, ctx.points[i]? = some p → (i :: p.children).Pairwise (· < ·)

namespace IsForest

theorem moves (h : ctx.IsForest) (k : Moves Point.Kin ctx ctx') : ctx'.IsForest where
  child hi hc := by
    obtain ⟨p, hp, hpi⟩ := k.source hi
    rw [hpi.children] at hc
    obtain ⟨q, s, polarity, hq, hkind⟩ := h.child hp hc
    obtain ⟨q', hq', hqq⟩ := k.point hq
    exact ⟨q', s, polarity, hq', hqq.kind.trans hkind⟩
  ascending hi := by
    obtain ⟨p, hp, hpi⟩ := k.source hi
    rw [hpi.children]
    exact h.ascending hp

theorem lt_of_mem_children (h : ctx.IsForest) {i c : Nat} {p : Point}
    (hp : ctx.points[i]? = some p) (hc : c ∈ p.children) : i < c :=
  (List.pairwise_cons.mp (h.ascending hp)).1 c hc

theorem nodup_children (h : ctx.IsForest) {i : Nat} {p : Point} (hp : ctx.points[i]? = some p) :
    p.children.Nodup :=
  (List.pairwise_cons.mp (h.ascending hp)).2.imp fun hlt => Nat.ne_of_lt hlt

/-- A point is the child of one point at most. -/
theorem parent_unique (h : ctx.IsForest) {i j c : Nat} {p q : Point}
    (hp : ctx.points[i]? = some p) (hq : ctx.points[j]? = some q) (hi : c ∈ p.children)
    (hj : c ∈ q.children) : i = j := by
  obtain ⟨r, s, b, hr, hkind⟩ := h.child hp hi
  obtain ⟨r', s', b', hr', hkind'⟩ := h.child hq hj
  rw [hr] at hr'
  cases hr'
  rw [hkind] at hkind'
  cases hkind'
  rfl

/-- The search reaches every descendant. -/
theorem mem_descendants (h : ctx.IsForest) {i d : Nat} :
    d ∈ ctx.descendants i ↔ ctx.Descends i d := by
  refine ⟨descends_of_mem_descendantsWithin, fun hd => ?_⟩
  -- there are at most as many generations left as there are numbers
  have hwithin : ∀ generations, ctx.points.length ≤ generations + i →
      d ∈ ctx.descendantsWithin generations i := by
    induction hd with
    | @child i c p hp hc =>
      intro generations hlen
      have hlt := h.lt_of_mem_children hp hc
      obtain ⟨q, -, -, hq, -⟩ := h.child hp hc
      have hbound := lt_of_point hq
      obtain ⟨n, rfl⟩ : ∃ n, generations = n + 1 := ⟨generations - 1, by omega⟩
      exact mem_descendantsWithin_succ.mpr ⟨p, c, hp, hc, .inl rfl⟩
    | @step i c d p hp hc _ ih =>
      intro generations hlen
      have hlt := h.lt_of_mem_children hp hc
      obtain ⟨q, -, -, hq, -⟩ := h.child hp hc
      have hbound := lt_of_point hq
      obtain ⟨n, rfl⟩ : ∃ n, generations = n + 1 := ⟨generations - 1, by omega⟩
      exact mem_descendantsWithin_succ.mpr ⟨p, c, hp, hc, .inr (ih n (by omega))⟩
  exact hwithin ctx.points.length (Nat.le_add_right _ _)

/-- A child is a descendant exactly if its parent is one, or is where the search starts. -/
theorem mem_descendants_iff (h : ctx.IsForest) {i j c : Nat} {p : Point}
    (hp : ctx.points[j]? = some p) (hc : c ∈ p.children) :
    c ∈ ctx.descendants i ↔ j = i ∨ j ∈ ctx.descendants i := by
  rw [h.mem_descendants, h.mem_descendants]
  constructor
  · intro hd
    obtain ⟨k, q, hk, hq, hd⟩ := hd.last
    rw [h.parent_unique hp hq hc hd]
    exact hk
  · rintro (rfl | hj)
    · exact .child hp hc
    · exact hj.snoc hp hc

theorem lt_of_descends (h : ctx.IsForest) {i d : Nat} (hd : ctx.Descends i d) : i < d := by
  induction hd with
  | child hp hc => exact h.lt_of_mem_children hp hc
  | step hp hc _ ih => exact Nat.lt_trans (h.lt_of_mem_children hp hc) ih

theorem exists_of_isBelow (h : ctx.IsForest) {i d : Nat} {p : Point}
    (hp : ctx.points[i]? = some p) (hd : ctx.IsBelow i d) : ∃ q, ctx.points[d]? = some q := by
  rcases hd with rfl | hd
  · exact ⟨p, hp⟩
  · obtain ⟨j, r, -, hr, hc⟩ := hd.last
    obtain ⟨q, -, -, hq, -⟩ := h.child hr hc
    exact ⟨q, hq⟩

theorem le_of_isBelow (h : ctx.IsForest) {i d : Nat} (hd : ctx.IsBelow i d) : i ≤ d := by
  rcases hd with rfl | hd
  · exact Nat.le_refl d
  · exact Nat.le_of_lt (h.lt_of_descends hd)

/-- Of two points above a third one lies above the other. -/
theorem isBelow_total (h : ctx.IsForest) {i j d : Nat} (hi : ctx.IsBelow i d)
    (hj : ctx.IsBelow j d) : ctx.IsBelow i j ∨ ctx.IsBelow j i := by
  -- up from `d`, the way is determined
  induction d using Nat.strongRecOn with
  | ind d ih =>
    rcases hi with rfl | hi
    · exact .inr hj
    rcases hj with rfl | hj
    · exact .inl (.inr hi)
    obtain ⟨k, p, hik, hp, hd⟩ := hi.last
    obtain ⟨l, q, hjl, hq, hd'⟩ := hj.last
    obtain rfl := h.parent_unique hp hq hd hd'
    exact ih k (h.lt_of_mem_children hp hd) hik hjl

/-- No point lies below two children of one point. -/
theorem children_apart (h : ctx.IsForest) {i c c' d : Nat} {p : Point}
    (hp : ctx.points[i]? = some p) (hc : c ∈ p.children) (hc' : c' ∈ p.children)
    (hd : ctx.IsBelow c d) (hd' : ctx.IsBelow c' d) : c = c' := by
  have hnone {a b : Nat} (ha : a ∈ p.children) (hb : b ∈ p.children) (hab : ctx.IsBelow a b) :
      b = a := by
    rcases hab with rfl | hab
    · rfl
    · obtain ⟨k, q, hk, hq, hbq⟩ := hab.last
      obtain rfl := h.parent_unique hp hq hb hbq
      have hlt := h.lt_of_mem_children hp ha
      have hle := h.le_of_isBelow hk
      omega
  rcases h.isBelow_total hd hd' with hbelow | hbelow
  · exact (hnone hc hc' hbelow).symm
  · exact hnone hc' hc hbelow

end IsForest

end Context

end LikelyInvariants
