import LikelyInvariants.Partition
import Mathlib.Logic.Relation

/-!
# Which things are in one class

Things are in one class if a chain of pairs leads from one to the other, whichever way each pair is
passed (`Partition.sameClass_iff`).

Every thing of the forest stands under one root, and no way to it is longer than the height of the
forest, so climbing ends at the root (`Forest.IsRooted.climb`). Climbing changes the links and
leaves the roots as they are. Uniting two trees puts one root in the place of another one
(`Forest.IsRooted.graft`), and the height grows by one at most. So throughout things have the same
root if and only if a chain of the pairs so far leads from one to the other (`Forest.Represents`).
-/

namespace LikelyInvariants

/-! ## Repetitions -/

section Repetitions

variable {α : Type}

/-- Leaving out what is the same as something before leaves nothing new. -/
theorem mem_of_mem_eraseDupsBy {r : α → α → Bool} {a : α} :
    ∀ {l : List α}, a ∈ l.eraseDupsBy r → a ∈ l
  | [], h => h
  | b :: l, h => by
    rw [List.eraseDupsBy_cons] at h
    rcases List.mem_cons.mp h with rfl | h
    · exact List.mem_cons_self
    · exact List.mem_cons_of_mem b (List.mem_filter.mp (mem_of_mem_eraseDupsBy h)).1
termination_by l => l.length
decreasing_by exact Nat.lt_succ_of_le (List.length_filter_le _ _)

/-- Of what is left none is the same as something before. -/
theorem pairwise_eraseDupsBy {r : α → α → Bool} :
    ∀ l : List α, (l.eraseDupsBy r).Pairwise fun a b => r b a = false
  | [] => .nil
  | a :: l => by
    rw [List.eraseDupsBy_cons]
    refine List.pairwise_cons.mpr ⟨fun b hb => ?_, pairwise_eraseDupsBy _⟩
    simpa using (List.mem_filter.mp (mem_of_mem_eraseDupsBy hb)).2
termination_by l => l.length
decreasing_by exact Nat.lt_succ_of_le (List.length_filter_le _ _)

/-- What is left out is the same as something that stays. -/
theorem exists_mem_eraseDupsBy {r : α → α → Bool} (hrefl : ∀ a, r a a) {a : α} :
    ∀ {l : List α}, a ∈ l → ∃ b ∈ l.eraseDupsBy r, r a b
  | [], h => nomatch h
  | b :: l, h => by
    rw [List.eraseDupsBy_cons]
    by_cases hsame : r a b
    · exact ⟨b, List.mem_cons_self, hsame⟩
    · have ha : a ∈ l := by
        rcases List.mem_cons.mp h with rfl | h
        · exact absurd (hrefl a) hsame
        · exact h
      have hkept : a ∈ l.filter fun c => r c b = false := List.mem_filter.mpr ⟨ha, by simp [hsame]⟩
      obtain ⟨c, hc, hac⟩ := exists_mem_eraseDupsBy hrefl hkept
      exact ⟨c, List.mem_cons_of_mem b hc, hac⟩
termination_by l => l.length
decreasing_by exact Nat.lt_succ_of_le (List.length_filter_le _ _)

/-- Nothing occurs twice among what is left. -/
theorem nodup_eraseDups [DecidableEq α] (l : List α) : l.eraseDups.Nodup :=
  (pairwise_eraseDupsBy l).imp fun {a b} h hsame => by simp [hsame] at h

end Repetitions

namespace Partition

variable {α : Type} {pairs : List (α × α)} {a b : α}

/-! ## Chains -/

section Chains

/-- A chain of pairs leads from one thing to the other. -/
abbrev Linked (pairs : List (α × α)) : α → α → Prop :=
  Relation.EqvGen fun a b => (a, b) ∈ pairs

theorem Linked.mono {more : List (α × α)} (h : Linked pairs a b) (hsub : pairs ⊆ more) :
    Linked more a b :=
  Relation.EqvGen.mono (fun _ _ hpair => hsub hpair) _ _ h

/-- What is linked is equivalent wherever pairs are. -/
theorem Linked.lift {r : α → α → Prop} (hr : Equivalence r) (hpairs : ∀ x ∈ pairs, r x.1 x.2)
    (h : Linked pairs a b) : r a b :=
  hr.eqvGen_iff.mp (Relation.EqvGen.mono (fun a b hpair => hpairs (a, b) hpair) _ _ h)

/-- What has a value in common along each pair has it in common along a chain. -/
theorem Linked.apply_eq {β : Type} {f : α → β} (h : Linked pairs a b)
    (hpairs : ∀ x ∈ pairs, f x.1 = f x.2) : f a = f b :=
  h.lift (r := fun a b => f a = f b) ⟨fun _ => rfl, Eq.symm, Eq.trans⟩ hpairs

/-- What is linked with something else is in some pair. -/
theorem Linked.mem_pair (h : Linked pairs a b) (hne : a ≠ b) : ∃ x ∈ pairs, a = x.1 ∨ a = x.2 := by
  let Occurs (a : α) : Prop := ∃ x ∈ pairs, a = x.1 ∨ a = x.2
  have hsame : a = b ∨ Occurs a ∧ Occurs b := by
    refine h.lift (r := fun a b => a = b ∨ Occurs a ∧ Occurs b) ⟨fun _ => .inl rfl, ?_, ?_⟩ ?_
    · exact fun h => h.imp Eq.symm And.symm
    · rintro a b c (rfl | ⟨ha, hb⟩) (rfl | ⟨hb', hc⟩)
      · exact .inl rfl
      · exact .inr ⟨hb', hc⟩
      · exact .inr ⟨ha, hb⟩
      · exact .inr ⟨ha, hc⟩
    · exact fun x hx => .inr ⟨⟨x, hx, .inl rfl⟩, ⟨x, hx, .inr rfl⟩⟩
  exact (hsame.resolve_left hne).1

end Chains

/-! ## Forests -/

namespace Forest

variable [DecidableEq α] {f : Forest α} {root : α → α} {depth : α → Nat}

theorem parent_hang (f : Forest α) (a under b : α) :
    (f.hang a under).parent b = if b = a then under else f.parent b := by
  unfold parent hang
  rw [List.lookup_cons]
  by_cases h : b = a
  · simp [h]
  · simp [h, beq_eq_false_iff_ne.mpr h]

theorem climb_of_top (htop : f.parent a = a) (steps : Nat) : f.climb steps a = (a, f) := by
  cases steps with
  | zero => rfl
  | succ steps =>
    unfold climb
    rw [if_pos htop]

/-- Every thing has a root, and from what stands above it the way there is shorter. -/
structure IsRooted (f : Forest α) (root : α → α) (depth : α → Nat) : Prop where
  top : ∀ a, f.parent (root a) = root a
  parent : ∀ a, root (f.parent a) = root a
  own : ∀ a, f.parent a = a → root a = a
  up : ∀ a, f.parent a ≠ a → depth (f.parent a) < depth a
  flat : ∀ a, depth (root a) = 0
  within : ∀ a, depth a ≤ f.height

/-- The roots after one of them was put in the place of another one. -/
def replaceRoot (root : α → α) (r s a : α) : α := if root a = s then r else root a

namespace IsRooted

theorem empty : IsRooted ({} : Forest α) id fun _ => 0 where
  top _ := rfl
  parent _ := rfl
  own _ _ := rfl
  up _ h := absurd rfl h
  flat _ := rfl
  within _ := Nat.le_refl 0

theorem root_root (h : f.IsRooted root depth) (a : α) : root (root a) = root a :=
  h.own (root a) (h.top a)

/-- Moving a thing directly under its root leaves all roots as they are. -/
theorem hang (h : f.IsRooted root depth) (hne : root a ≠ a) :
    (f.hang a (root a)).IsRooted root depth where
  top b := by
    rw [parent_hang]
    split
    · next hroot => rw [← hroot, h.root_root]
    · exact h.top b
  parent b := by
    rw [parent_hang]
    split
    · next hsame => rw [hsame, h.root_root]
    · exact h.parent b
  own b hb := by
    rw [parent_hang] at hb
    split at hb
    · next hsame => rwa [hsame] at hb ⊢
    · exact h.own b hb
  up b hb := by
    rw [parent_hang] at hb ⊢
    split at hb
    · next hsame =>
      have hup := h.up a fun htop => hne (h.own a htop)
      rw [if_pos hsame, h.flat, hsame]
      exact Nat.lt_of_le_of_lt (Nat.zero_le _) hup
    · next hother =>
      rw [if_neg hother]
      exact h.up b hb
  flat := h.flat
  within := h.within

theorem parent_eq_of_depth (h : f.IsRooted root depth) (hdepth : depth a ≤ 0) : f.parent a = a :=
  Decidable.byContradiction fun hne =>
    Nat.not_lt_zero _ (Nat.lt_of_lt_of_le (h.up a hne) hdepth)

/-- Climbing far enough ends at the root. -/
theorem climb (h : f.IsRooted root depth) {steps : Nat} (hsteps : depth a ≤ steps) :
    (f.climb steps a).1 = root a ∧ (f.climb steps a).2.IsRooted root depth := by
  induction steps generalizing a with
  | zero => exact ⟨(h.own a (h.parent_eq_of_depth hsteps)).symm, h⟩
  | succ steps ih =>
    unfold Forest.climb
    split
    · next htop => exact ⟨(h.own a htop).symm, h⟩
    · next hne =>
      have hup := h.up a hne
      obtain ⟨hroot, hrooted⟩ := ih (a := f.parent a) (by omega)
      rw [h.parent] at hroot
      refine ⟨hroot, ?_⟩
      dsimp only
      rw [hroot]
      exact hrooted.hang fun hown => hne (by rw [← hown, h.top])

theorem find (h : f.IsRooted root depth) (a : α) :
    (f.find a).1 = root a ∧ (f.find a).2.IsRooted root depth :=
  h.climb (h.within a)

/-- Climbing ends at the root by itself, however many more steps are allowed. -/
theorem climb_eq_find (h : f.IsRooted root depth) {steps : Nat} (hsteps : depth a ≤ steps) :
    f.climb steps a = f.find a := by
  have hwithin := h.within a
  unfold Forest.find
  generalize f.height = n at hwithin
  induction steps generalizing a n with
  | zero => exact (climb_of_top (h.parent_eq_of_depth hsteps) n).symm
  | succ steps ih =>
    by_cases htop : f.parent a = a
    · rw [climb_of_top htop, climb_of_top htop]
    · have hup := h.up a htop
      cases n with
      | zero => omega
      | succ n =>
        unfold Forest.climb
        rw [if_neg htop, if_neg htop, ih (by omega) n (by omega)]

theorem findAll (h : f.IsRooted root depth) (as : List α) :
    f.findAll as = as.map fun a => (a, root a) := by
  induction as generalizing f with
  | nil => rfl
  | cons a as ih =>
    obtain ⟨hroot, hrooted⟩ := h.find a
    unfold Forest.findAll
    dsimp only
    rw [hroot, ih hrooted, List.map_cons]

/-- One root is moved under another one, and the ways through it get longer by one step. -/
theorem graft (h : f.IsRooted root depth) {r s : α} (hr : root r = r) (hs : root s = s)
    (hne : r ≠ s) :
    ({ f.hang s r with height := f.height + 1 } : Forest α).IsRooted (replaceRoot root r s)
      fun a => if root a = s then depth a + 1 else depth a := by
  have hparent (a : α) : ({ f.hang s r with height := f.height + 1 } : Forest α).parent a =
      if a = s then r else f.parent a := parent_hang f s r a
  have hflat : depth r = 0 := by rw [← hr, h.flat]
  constructor
  case top =>
    intro a
    rw [hparent]
    unfold replaceRoot
    split
    · rw [← hr, h.top]
    · exact h.top a
  case parent =>
    intro a
    rw [hparent]
    unfold replaceRoot
    split
    · next hsame => rw [hr, if_neg hne, hsame, if_pos hs]
    · rw [h.parent]
  case own =>
    intro a ha
    rw [hparent] at ha
    split at ha
    · next hsame => exact absurd (ha.trans hsame) hne
    · next hother =>
      unfold replaceRoot
      rw [h.own a ha, if_neg hother]
  case up =>
    intro a ha
    rw [hparent] at ha ⊢
    split at ha
    · next hsame =>
      rw [if_pos hsame, hr, if_neg hne, hflat, hsame, if_pos hs]
      exact Nat.succ_pos _
    · next hother =>
      have hup := h.up a ha
      rw [if_neg hother, h.parent]
      split <;> omega
  case flat =>
    intro a
    unfold replaceRoot
    split
    · rw [hr, if_neg hne, hflat]
    · next hother => rw [h.root_root, if_neg hother, h.flat]
  case within =>
    intro a
    have hwithin := h.within a
    dsimp only
    split <;> omega

end IsRooted

/-- Things stand under one root if and only if a chain of pairs leads from one to the other. -/
structure Represents (f : Forest α) (pairs : List (α × α)) (root : α → α) (depth : α → Nat) : Prop
    extends IsRooted f root depth where
  linked : ∀ a b, root a = root b ↔ Linked pairs a b

theorem represents_empty : Represents ({} : Forest α) [] id fun _ => 0 where
  toIsRooted := .empty
  linked a b := by
    refine ⟨?_, fun h => h.apply_eq (by simp)⟩
    rintro (rfl : a = b)
    exact .refl a

/-- With a root in the place of another one, things have the same root if a chain leads from one to
the other that may pass the new pair. -/
theorem replaceRoot_eq_iff {more : List (α × α)}
    (hlinked : ∀ x y, root x = root y ↔ Linked pairs x y) (hsub : pairs ⊆ more)
    (hnew : Linked more a b) (hmore : ∀ x ∈ more, x ∈ pairs ∨ x = (a, b) ∨ x = (b, a)) (x y : α) :
    replaceRoot root (root a) (root b) x = replaceRoot root (root a) (root b) y ↔
      Linked more x y := by
  have hold {x y : α} (h : root x = root y) : Linked more x y := ((hlinked x y).mp h).mono hsub
  constructor
  · intro h
    unfold replaceRoot at h
    split at h <;> split at h
    · next hx hy => exact hold (hx.trans hy.symm)
    · next hx _ => exact ((hold hx).trans _ _ _ (hnew.symm _ _)).trans _ _ _ (hold h)
    · next _ hy => exact ((hold h).trans _ _ _ hnew).trans _ _ _ (hold hy.symm)
    · exact hold h
  · intro h
    have hpair : replaceRoot root (root a) (root b) a = replaceRoot root (root a) (root b) b := by
      unfold replaceRoot
      rw [if_pos rfl, ite_self]
    refine h.apply_eq fun z hz => ?_
    rcases hmore z hz with hz | rfl | rfl
    · unfold replaceRoot
      rw [(hlinked z.1 z.2).mpr (.rel _ _ hz)]
    · exact hpair
    · exact hpair.symm

theorem Represents.unite (h : f.Represents pairs root depth) (above : α → α → Bool) (a b : α) :
    ∃ root' depth', (f.unite above a b).Represents (pairs ++ [(a, b)]) root' depth' := by
  obtain ⟨hr, hfound⟩ := h.find a
  obtain ⟨hs, hfound⟩ := hfound.find b
  have hsub : pairs ⊆ pairs ++ [(a, b)] := List.subset_append_left _ _
  have hpair : Linked (pairs ++ [(a, b)]) a b := .rel a b (by simp)
  have hmore : ∀ x ∈ pairs ++ [(a, b)], x ∈ pairs ∨ x = (a, b) := by simp
  unfold Forest.unite
  dsimp only
  rw [hr, hs]
  split
  · next hsame =>
    refine ⟨root, depth, hfound, fun x y => ⟨fun hxy => ?_, fun hxy => ?_⟩⟩
    · exact ((h.linked x y).mp hxy).mono hsub
    · refine hxy.apply_eq fun z hz => ?_
      rcases hmore z hz with hz | rfl
      · exact (h.linked z.1 z.2).mpr (.rel _ _ hz)
      · exact hsame
  · next hne =>
    split
    · refine ⟨_, _, hfound.graft (h.root_root a) (h.root_root b) hne, ?_⟩
      exact replaceRoot_eq_iff h.linked hsub hpair fun x hx => (hmore x hx).imp_right .inl
    · refine ⟨_, _, hfound.graft (h.root_root b) (h.root_root a) (Ne.symm hne), ?_⟩
      exact replaceRoot_eq_iff h.linked hsub (hpair.symm _ _) fun x hx => (hmore x hx).imp_right .inr

/-- The forest of some pairs has a tree for each of their classes. -/
theorem exists_represents (above : α → α → Bool) (pairs : List (α × α)) :
    ∃ root depth, (ofPairs above pairs).Represents pairs root depth := by
  have hfold (rest done : List (α × α)) (f : Forest α)
      (h : ∃ root depth, f.Represents done root depth) : ∃ root depth,
        (rest.foldl (fun f x => f.unite above x.1 x.2) f).Represents (done ++ rest) root depth := by
    induction rest generalizing done f with
    | nil => rwa [List.append_nil]
    | cons x rest ih =>
      obtain ⟨root, depth, h⟩ := h
      rw [List.append_cons]
      exact ih _ _ (h.unite above x.1 x.2)
  exact hfold pairs [] {} ⟨_, _, represents_empty⟩

/-- The forest after some things were looked up. -/
def lookUp (f : Forest α) (as : List α) : Forest α := as.foldl (fun f a => (f.find a).2) f

/-- Looking a thing up comes to an end at a root. That the way is not cut short shows in that more
steps would make no difference. -/
def Terminates (f : Forest α) (a : α) : Prop :=
  f.parent (f.find a).1 = (f.find a).1 ∧
    ∀ steps, f.height ≤ steps → f.climb steps a = f.find a

/-- However far pairs have been united and things looked up, looking up terminates. -/
theorem terminates_lookUp (above : α → α → Bool) (pairs : List (α × α)) (as : List α) (a : α) :
    ((ofPairs above pairs).lookUp as).Terminates a := by
  obtain ⟨root, depth, h⟩ := exists_represents above pairs
  have hlookUp (f : Forest α) (h : f.IsRooted root depth) : (f.lookUp as).IsRooted root depth := by
    induction as generalizing f with
    | nil => exact h
    | cons b as ih => exact ih _ (h.find b).2
  have hrooted := hlookUp _ h.toIsRooted
  constructor
  · rw [(hrooted.find a).1, hrooted.top]
  · intro steps hsteps
    exact hrooted.climb_eq_find (Nat.le_trans (hrooted.within a) hsteps)

end Forest

/-! ## Classes -/

section Classes

variable {classes : List (List α)}

/-- The classes are apart, and hold what is linked. -/
structure Classifies (pairs : List (α × α)) (classes : List (List α)) : Prop where
  nonempty : ∀ c ∈ classes, ∃ a, a ∈ c
  apart : classes.Pairwise fun c d => ∀ a ∈ c, a ∉ d
  linked : ∀ c ∈ classes, ∀ a ∈ c, ∀ b ∈ c, Linked pairs a b
  covered : ∀ c ∈ classes, ∀ a ∈ c, ∃ x ∈ pairs, a = x.1 ∨ a = x.2
  together : ∀ x ∈ pairs, ∃ c ∈ classes, x.1 ∈ c ∧ x.2 ∈ c

/-- A thing is in one class only. -/
theorem Classifies.eq_of_mem (h : Classifies pairs classes) {c d : List α} (hc : c ∈ classes)
    (hd : d ∈ classes) (hac : a ∈ c) (had : a ∈ d) : c = d := by
  obtain ⟨i, hi, rfl⟩ := List.getElem_of_mem hc
  obtain ⟨j, hj, rfl⟩ := List.getElem_of_mem hd
  have hapart := List.pairwise_iff_getElem.mp h.apart
  rcases Nat.lt_trichotomy i j with hlt | rfl | hgt
  · exact absurd had (hapart i j hi hj hlt a hac)
  · rfl
  · exact absurd hac (hapart j i hj hi hgt a had)

variable [DecidableEq α] {above : α → α → Bool}

theorem mem_members : a ∈ members pairs ↔ ∃ x ∈ pairs, a = x.1 ∨ a = x.2 := by
  simp [members]

/-- The things under one root are a class. -/
theorem ofPairs_eq {root : α → α} {depth : α → Nat}
    (h : (Forest.ofPairs above pairs).IsRooted root depth) :
    ofPairs above pairs = ((members pairs).map root).eraseDups.map fun r =>
      (members pairs).filter (root · = r) := by
  unfold ofPairs
  dsimp only
  rw [h.findAll, List.map_map]
  refine List.map_congr_left fun r _ => ?_
  rw [List.filter_map, List.map_map]
  exact List.map_id _

/-- Nothing is in a class twice. -/
theorem nodup_of_mem_ofPairs {c : List α} (hc : c ∈ ofPairs above pairs) : c.Nodup := by
  obtain ⟨root, depth, h⟩ := Forest.exists_represents above pairs
  rw [ofPairs_eq h.toIsRooted] at hc
  obtain ⟨r, -, rfl⟩ := List.mem_map.mp hc
  exact (nodup_eraseDups _).filter _

theorem classifies_ofPairs (above : α → α → Bool) (pairs : List (α × α)) :
    Classifies pairs (ofPairs above pairs) := by
  obtain ⟨root, depth, h⟩ := Forest.exists_represents above pairs
  rw [ofPairs_eq h.toIsRooted]
  constructor
  case nonempty =>
    intro c hc
    obtain ⟨r, hr, rfl⟩ := List.mem_map.mp hc
    obtain ⟨a, ha, rfl⟩ := List.mem_map.mp (List.mem_eraseDups.mp hr)
    exact ⟨a, List.mem_filter.mpr ⟨ha, by simp⟩⟩
  case apart =>
    refine List.pairwise_map.mpr ((nodup_eraseDups _).imp fun {r s} hne a har has => hne ?_)
    have hr : root a = r := by simpa using (List.mem_filter.mp har).2
    have hs : root a = s := by simpa using (List.mem_filter.mp has).2
    exact hr.symm.trans hs
  case linked =>
    intro c hc a ha b hb
    obtain ⟨r, -, rfl⟩ := List.mem_map.mp hc
    have hra : root a = r := by simpa using (List.mem_filter.mp ha).2
    have hrb : root b = r := by simpa using (List.mem_filter.mp hb).2
    exact (h.linked a b).mp (hra.trans hrb.symm)
  case covered =>
    intro c hc a ha
    obtain ⟨r, -, rfl⟩ := List.mem_map.mp hc
    exact mem_members.mp (List.mem_filter.mp ha).1
  case together =>
    intro x hx
    have hfirst : x.1 ∈ members pairs := mem_members.mpr ⟨x, hx, .inl rfl⟩
    have hsecond : x.2 ∈ members pairs := mem_members.mpr ⟨x, hx, .inr rfl⟩
    have hsame : root x.2 = root x.1 := ((h.linked _ _).mpr (.rel _ _ hx)).symm
    refine ⟨_, List.mem_map.mpr ⟨root x.1, ?_, rfl⟩, ?_, ?_⟩
    · exact List.mem_eraseDups.mpr (List.mem_map_of_mem hfirst)
    · exact List.mem_filter.mpr ⟨hfirst, by simp⟩
    · exact List.mem_filter.mpr ⟨hsecond, by simpa using hsame⟩

/-- **The classes are those of a chain of pairs.** -/
theorem sameClass_iff : (∃ c ∈ ofPairs above pairs, a ∈ c ∧ b ∈ c) ↔
    (∃ x ∈ pairs, a = x.1 ∨ a = x.2) ∧ Linked pairs a b := by
  have h := classifies_ofPairs above pairs
  constructor
  · rintro ⟨c, hc, ha, hb⟩
    exact ⟨h.covered c hc a ha, h.linked c hc a ha b hb⟩
  · rintro ⟨⟨x, hx, hside⟩, hlinked⟩
    obtain ⟨c, hc, hfirst, hsecond⟩ := h.together x hx
    have ha : a ∈ c := by rcases hside with rfl | rfl <;> assumption
    -- a chain does not leave the class it begins in
    have hsame : a ∈ c ↔ b ∈ c := by
      refine hlinked.lift (r := fun y z => y ∈ c ↔ z ∈ c) ⟨fun _ => .rfl, .symm, .trans⟩ ?_
      intro y hy
      obtain ⟨d, hd, hfirst, hsecond⟩ := h.together y hy
      exact ⟨fun hmem => h.eq_of_mem hd hc hfirst hmem ▸ hsecond,
        fun hmem => h.eq_of_mem hd hc hsecond hmem ▸ hfirst⟩
    exact ⟨c, hc, ha, hsame.mp ha⟩

end Classes

end Partition

end LikelyInvariants
