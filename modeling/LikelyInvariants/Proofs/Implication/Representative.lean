import LikelyInvariants.Proofs.Implication.Content
import LikelyInvariants.Proofs.Partition

/-!
# The term that stands for a class

Two-way implications make terms equivalent. The classes that their forest has are those of chains of
them, and in each class one term is canonical, the representative. What stays are the two-way
implications and, of the others, those about terms that are representatives or equivalent to nothing
(`Implication.canonicalize_representatives`). Which implications stay depends on the two-way ones
only.

The members of a class compete in the order of their sources, each with the best one so far
(`Implication.IsChosen`). So a shortest text wins among the desirable ones. Where none is desirable
each member beats the one before it, and the last one wins, however long its text is
(`Implication.representative_shortest_or_last`).
-/

namespace LikelyInvariants

/-! ## The order of sources -/

section Order

theorem TermSource.isLE_compare_iff (s t : TermSource) : (s.compare t).isLE ↔
    match s, t with
    | .invariant p i, .invariant q j => p < q ∨ p = q ∧ i ≤ j
    | .invariant _ _, .condition _ => True
    | .condition _, .invariant _ _ => False
    | .condition p, .condition q => p ≤ q := by
  cases s <;> cases t <;>
    simp [TermSource.compare, Nat.isLE_compare, Ordering.isLE_then_iff_or, Nat.compare_eq_lt]

theorem TermSource.isLE_compare_self (s : TermSource) : (s.compare s).isLE := by
  rw [isLE_compare_iff]
  cases s <;> simp

theorem TermSource.pairwise_mergeSort (members : List TermSource) :
    (members.mergeSort fun s t => (s.compare t).isLE).Pairwise fun s t => (s.compare t).isLE := by
  apply List.pairwise_mergeSort
  · intro s t u hst htu
    rw [isLE_compare_iff] at *
    cases s <;> cases t <;> cases u <;> simp_all <;> omega
  · intro s t
    rw [Bool.or_eq_true, isLE_compare_iff, isLE_compare_iff]
    cases s <;> cases t <;> simp <;> omega

/-- The last of some sources in order comes after all of them. -/
theorem TermSource.isLE_of_getLast? {members : List TermSource} {s m : TermSource}
    (hlast : (members.mergeSort fun s t => (s.compare t).isLE).getLast? = some m)
    (hs : s ∈ members) : (s.compare m).isLE := by
  obtain ⟨before, hsorted⟩ := List.getLast?_eq_some_iff.mp hlast
  have hpairwise := pairwise_mergeSort members
  rw [hsorted] at hpairwise
  have hmem : s ∈ before ++ [m] := hsorted ▸ List.mem_mergeSort.mpr hs
  rcases List.mem_append.mp hmem with hbefore | hself
  · exact (List.pairwise_append.mp hpairwise).2.2 s hbefore m List.mem_cons_self
  · rw [List.mem_singleton.mp hself]
    exact m.isLE_compare_self

end Order

namespace Implication

variable {imps more : List Implication} {s t m : TermSource} {c : List TermSource}

/-! ## Classes -/

section Classes

/-- The terms that two-way implications make equivalent. -/
def equations (imps : List Implication) : List (TermSource × TermSource) :=
  (imps.filter (·.iff)).map fun i => (i.predicate.source, i.consequent.source)

theorem mem_equations {x : TermSource × TermSource} :
    x ∈ equations imps ↔
      ∃ i ∈ imps, i.iff ∧ i.predicate.source = x.1 ∧ i.consequent.source = x.2 := by
  simp [equations, Prod.ext_iff, and_assoc]

/-- A two-way implication is about the term. -/
def IsEquated (imps : List Implication) (s : TermSource) : Prop :=
  ∃ x ∈ equations imps, s = x.1 ∨ s = x.2

instance : Decidable (IsEquated imps s) := inferInstanceAs (Decidable (∃ _ ∈ _, _))

theorem classifies_classes (imps : List Implication) :
    Partition.Classifies (equations imps) (classes imps) := Partition.classifies_ofPairs _ _

theorem isEquated_of_mem (hc : c ∈ classes imps) (hs : s ∈ c) : IsEquated imps s :=
  (classifies_classes imps).covered c hc s hs

theorem IsEquated.exists_class (h : IsEquated imps s) : ∃ c ∈ classes imps, s ∈ c := by
  obtain ⟨x, hx, hside⟩ := h
  obtain ⟨c, hc, hfirst, hsecond⟩ := (classifies_classes imps).together x hx
  rcases hside with rfl | rfl
  · exact ⟨c, hc, hfirst⟩
  · exact ⟨c, hc, hsecond⟩

end Classes

/-! ## The choice -/

section Choice

variable {text : TermSource → String} {seen members : List TermSource}

/-- What wins among some members of a class in the order in which they compete: a shortest one with
a desirable text, or else the last one. -/
structure IsChosen (text : TermSource → String) (seen : List TermSource) (m : TermSource) :
    Prop where
  mem : m ∈ seen
  shortest : ∀ s ∈ seen, isUndesirable (text s) = false →
    isUndesirable (text m) = false ∧ (text m).utf8ByteSize ≤ (text s).utf8ByteSize
  last : isUndesirable (text m) → seen.getLast? = some m

theorem isPreferred_iff {other new : String} : isPreferred other new ↔
    isUndesirable other ∨
      isUndesirable new = false ∧ new.utf8ByteSize < other.utf8ByteSize := by
  simp [isPreferred]

theorem isChosen_singleton (text : TermSource → String) (m : TermSource) :
    IsChosen text [m] m where
  mem := List.mem_cons_self
  shortest s hs hdesirable := by
    obtain rfl := List.mem_singleton.mp hs
    exact ⟨hdesirable, Nat.le_refl _⟩
  last _ := rfl

theorem IsChosen.compete (h : IsChosen text seen m) (s : TermSource) :
    IsChosen text (seen ++ [s]) (if isPreferred (text m) (text s) then s else m) := by
  split
  · next hpreferred =>
    refine ⟨List.mem_append_right seen List.mem_cons_self, fun t ht hdesirable => ?_, fun _ =>
      List.getLast?_concat⟩
    rcases List.mem_append.mp ht with ht | ht
    · -- the one before was desirable, so it was beaten by a shorter one
      obtain ⟨hbefore, hle⟩ := h.shortest t ht hdesirable
      have hbeaten := (isPreferred_iff.mp hpreferred).resolve_left (by simp [hbefore])
      exact ⟨hbeaten.1, Nat.le_trans (Nat.le_of_lt hbeaten.2) hle⟩
    · obtain rfl := List.mem_singleton.mp ht
      exact ⟨hdesirable, Nat.le_refl _⟩
  · next hstays =>
    rw [isPreferred_iff, not_or, Bool.not_eq_true] at hstays
    refine ⟨List.mem_append_left _ h.mem, fun t ht hdesirable => ?_, fun hbad => ?_⟩
    · rcases List.mem_append.mp ht with ht | ht
      · exact h.shortest t ht hdesirable
      · obtain rfl := List.mem_singleton.mp ht
        exact ⟨hstays.1, Nat.le_of_not_lt fun hlt => hstays.2 ⟨hdesirable, hlt⟩⟩
    · rw [hstays.1] at hbad
      cases hbad

theorem IsChosen.foldl (h : IsChosen text seen m) (ms : List TermSource) :
    IsChosen text (seen ++ ms)
      (ms.foldl (fun best s => if isPreferred (text best) (text s) then s else best) m) := by
  induction ms generalizing seen m with
  | nil => rwa [List.append_nil]
  | cons s ms ih =>
    rw [List.append_cons]
    exact ih (h.compete s)

/-- The best member is what wins when the members compete in their order. -/
theorem exists_isChosen (text : TermSource → String) (hs : s ∈ members) :
    ∃ m, best? text members = some m ∧
      IsChosen text (members.mergeSort fun s t => (s.compare t).isLE) m := by
  have hsorted : s ∈ members.mergeSort fun s t => (s.compare t).isLE := List.mem_mergeSort.mpr hs
  unfold best?
  split
  · next hnil =>
    rw [hnil] at hsorted
    cases hsorted
  · next m ms hcons =>
    rw [hcons]
    exact ⟨_, rfl, (isChosen_singleton text m).foldl ms⟩

/-- Of two members that stand the wrong way round the second one is the first to compete. -/
theorem best_pair (h : (s.compare t).isLE = false) : best? text [s, t] =
    some (if isPreferred (text t) (text s) then s else t) := by
  simp [best?, List.mergeSort, List.MergeSort.Internal.splitInTwo, h]

theorem exists_best (text : TermSource → String) (hs : s ∈ members) :
    ∃ m ∈ members, best? text members = some m := by
  obtain ⟨m, hbest, hchosen⟩ := exists_isChosen text hs
  exact ⟨m, List.mem_mergeSort.mp hchosen.mem, hbest⟩

end Choice

/-! ## Representatives -/

section Representatives

/-- The canonical members of the classes. -/
def representatives (imps : List Implication) : List TermSource :=
  (represented imps).filterMap (·.2)

theorem mem_representatives : m ∈ representatives imps ↔
    ∃ c ∈ classes imps, best? (lastText (equivalenceTerms imps)) c = some m := by
  simp [representatives, represented]

/-- Of each class just its best member is a representative. -/
theorem exists_representative (hc : c ∈ classes imps) (hs : s ∈ c) :
    ∃ m ∈ c, best? (lastText (equivalenceTerms imps)) c = some m ∧
      ∀ t ∈ c, t ∈ representatives imps ↔ t = m := by
  obtain ⟨m, hm, hbest⟩ := exists_best (lastText (equivalenceTerms imps)) hs
  refine ⟨m, hm, hbest, fun t ht => ?_⟩
  rw [mem_representatives]
  constructor
  · rintro ⟨d, hd, hbest'⟩
    have htd : t ∈ d := by
      obtain ⟨x, hx⟩ : ∃ x, x ∈ d := List.exists_mem_of_ne_nil d fun hnil => by
        simp [hnil, best?] at hbest'
      obtain ⟨m', hm', hsame⟩ := exists_best (lastText (equivalenceTerms imps)) hx
      rw [hbest'] at hsame
      exact Option.some.inj hsame ▸ hm'
    rw [(classifies_classes imps).eq_of_mem hd hc htd ht, hbest] at hbest'
    exact (Option.some.inj hbest').symm
  · rintro rfl
    exact ⟨c, hc, hbest⟩

/-- A term is canonical if it is equivalent to nothing or represents its class. -/
theorem isCanonical_iff : isCanonical (represented imps) s ↔
    ¬IsEquated imps s ∨ s ∈ representatives imps := by
  unfold isCanonical
  split
  · next hnone =>
    refine iff_of_true rfl (.inl fun h => ?_)
    obtain ⟨c, hc, hs⟩ := h.exists_class
    have hx := List.find?_eq_none.mp hnone _ (List.mem_map_of_mem hc)
    simp [hs] at hx
  · next c canonical hfound =>
    obtain ⟨c', hc, heq⟩ := List.mem_map.mp (List.mem_of_find?_eq_some hfound)
    have hs : s ∈ c := by simpa using List.find?_some hfound
    obtain ⟨rfl, rfl⟩ := Prod.mk.inj heq
    obtain ⟨m, -, hbest, hunique⟩ := exists_representative hc hs
    rw [hunique s hs, hbest]
    simp [isEquated_of_mem hc hs, eq_comm]

theorem isCanonical_of_free (h : ∀ x ∈ equations imps, s ≠ x.1 ∧ s ≠ x.2) :
    isCanonical (represented imps) s :=
  isCanonical_iff.mpr (.inl fun ⟨x, hx, hside⟩ => hside.elim (h x hx).1 (h x hx).2)

/-- Every term is linked to a canonical one. -/
theorem exists_canonical (imps : List Implication) (s : TermSource) :
    ∃ m, isCanonical (represented imps) m ∧ Partition.Linked (equations imps) s m := by
  by_cases h : IsEquated imps s
  · obtain ⟨c, hc, hs⟩ := h.exists_class
    obtain ⟨m, hm, -, hunique⟩ := exists_representative hc hs
    exact ⟨m, isCanonical_iff.mpr (.inr ((hunique m hm).mpr rfl)),
      (classifies_classes imps).linked c hc s hs m hm⟩
  · exact ⟨s, isCanonical_iff.mpr (.inl h), .refl s⟩

end Representatives

/-! ## What stays -/

section Staying

/-- Whether an implication stays beside others. -/
def stays (imps : List Implication) (i : Implication) : Bool :=
  i.iff || (isCanonical (represented imps) i.predicate.source &&
    isCanonical (represented imps) i.consequent.source)

theorem canonicalize_eq (imps : List Implication) :
    canonicalize imps = imps.filter (stays imps) := rfl

theorem mem_canonicalize {i : Implication} : i ∈ canonicalize imps ↔ i ∈ imps ∧
    (i.iff ∨ isCanonical (represented imps) i.predicate.source ∧
      isCanonical (represented imps) i.consequent.source) := by
  simp [canonicalize]

/-- What stays is a matter of the two-way implications. -/
theorem stays_congr (h : more.filter (·.iff) = imps.filter (·.iff)) : stays more = stays imps := by
  have hrepresented : represented more = represented imps := by
    unfold represented classes equivalenceTerms
    rw [h]
  funext i
  rw [stays, stays, hrepresented]

theorem filter_iff_canonicalize (imps : List Implication) :
    (canonicalize imps).filter (·.iff) = imps.filter (·.iff) := by
  rw [canonicalize_eq, List.filter_filter]
  refine List.filter_congr fun i _ => ?_
  cases h : i.iff <;> simp [stays, h]

theorem canonicalize_canonicalize (imps : List Implication) :
    canonicalize (canonicalize imps) = canonicalize imps := by
  rw [canonicalize_eq (canonicalize imps), stays_congr (filter_iff_canonicalize imps),
    canonicalize_eq, List.filter_filter]
  simp

/-- **One member of each class represents it.** Looking up a term in the forest of the two-way
implications terminates, however far the forest has been built. The classes are those of chains of
two-way implications, and each has just one representative. The two-way implications stay, and of
the others those between terms that are representatives or equivalent to nothing, all in their
order. Doing this again changes nothing. -/
theorem canonicalize_representatives (imps : List Implication) :
    (∀ done, done <+: equations imps → ∀ (found : List TermSource) (s : TermSource),
      ((Partition.Forest.ofPairs (fun _ _ => true) done).lookUp found).Terminates s) ∧
    (∀ s t, (∃ c ∈ classes imps, s ∈ c ∧ t ∈ c) ↔
      IsEquated imps s ∧ Partition.Linked (equations imps) s t) ∧
    (∀ c ∈ classes imps, ∃! m, m ∈ c ∧ m ∈ representatives imps) ∧
    (canonicalize imps = imps.filter fun i => i.iff ∨
      (¬IsEquated imps i.predicate.source ∨ i.predicate.source ∈ representatives imps) ∧
      (¬IsEquated imps i.consequent.source ∨ i.consequent.source ∈ representatives imps)) ∧
    canonicalize (canonicalize imps) = canonicalize imps := by
  refine ⟨fun done _ found s => Partition.Forest.terminates_lookUp _ done found s,
    fun s t => Partition.sameClass_iff, fun c hc => ?_, ?_, canonicalize_canonicalize imps⟩
  · obtain ⟨s, hs⟩ := (classifies_classes imps).nonempty c hc
    obtain ⟨m, hm, -, hunique⟩ := exists_representative hc hs
    refine ⟨m, ⟨hm, (hunique m hm).mpr rfl⟩, ?_⟩
    rintro t ⟨ht, hrepresents⟩
    exact (hunique t ht).mp hrepresents
  · rw [canonicalize_eq]
    refine List.filter_congr fun i _ => ?_
    rw [Bool.eq_iff_iff, decide_eq_true_iff, ← isCanonical_iff, ← isCanonical_iff]
    simp [stays]

end Staying

/-! ## Which member it is -/

section Text

variable {text : TermSource → String}

theorem mem_equivalenceTerms {t : Term} : t ∈ equivalenceTerms imps ↔
    ∃ i ∈ imps, i.iff ∧ (t = i.predicate ∨ t = i.consequent) := by
  simp [equivalenceTerms, and_assoc]

/-- Where a source always carries the same text, that is the text that counts. -/
theorem lastText_eq (htext : ∀ i ∈ imps, i.predicate.text = text i.predicate.source ∧
    i.consequent.text = text i.consequent.source) (hs : IsEquated imps s) :
    lastText (equivalenceTerms imps) s = text s := by
  have hsource : ∃ t ∈ equivalenceTerms imps, t.source = s := by
    obtain ⟨x, hx, hside⟩ := hs
    obtain ⟨i, hi, hiff, hfirst, hsecond⟩ := mem_equations.mp hx
    rcases hside with rfl | rfl
    · exact ⟨i.predicate, mem_equivalenceTerms.mpr ⟨i, hi, hiff, .inl rfl⟩, hfirst⟩
    · exact ⟨i.consequent, mem_equivalenceTerms.mpr ⟨i, hi, hiff, .inr rfl⟩, hsecond⟩
  have hsame : ∀ t ∈ equivalenceTerms imps, t.text = text t.source := by
    intro t ht
    obtain ⟨i, hi, -, rfl | rfl⟩ := mem_equivalenceTerms.mp ht
    · exact (htext i hi).1
    · exact (htext i hi).2
  obtain ⟨t, ht, hts⟩ := hsource
  have hmem : t ∈ (equivalenceTerms imps).filter (·.source = s) :=
    List.mem_filter.mpr ⟨ht, by simpa using hts⟩
  unfold lastText
  cases hlast : ((equivalenceTerms imps).filter (·.source = s)).getLast? with
  | none =>
    rw [List.getLast?_eq_none_iff.mp hlast] at hmem
    cases hmem
  | some u =>
    obtain ⟨hu, hus⟩ := List.mem_filter.mp (List.mem_of_getLast? hlast)
    have hus : u.source = s := by simpa using hus
    show u.text = text s
    rw [hsame u hu, hus]

/-- **Which member represents a class.** Where each source always carries the same text, it is a
member with a shortest one of the desirable texts, if there is one. If all texts of the class are
undesirable, it is the last member, whatever the lengths of the texts. -/
theorem representative_shortest_or_last (htext : ∀ i ∈ imps,
    i.predicate.text = text i.predicate.source ∧ i.consequent.text = text i.consequent.source)
    (hc : c ∈ classes imps) :
    ∃ m ∈ c, (∀ s ∈ c, s ∈ representatives imps ↔ s = m) ∧
      ((∃ s ∈ c, isUndesirable (text s) = false) → isUndesirable (text m) = false ∧
        ∀ s ∈ c, isUndesirable (text s) = false →
          (text m).utf8ByteSize ≤ (text s).utf8ByteSize) ∧
      ((∀ s ∈ c, isUndesirable (text s)) → ∀ s ∈ c, (s.compare m).isLE) := by
  obtain ⟨a, ha⟩ := (classifies_classes imps).nonempty c hc
  have hsame (s : TermSource) (hs : s ∈ c) : lastText (equivalenceTerms imps) s = text s :=
    lastText_eq htext (isEquated_of_mem hc hs)
  obtain ⟨m, hm, hbest, hunique⟩ := exists_representative hc ha
  obtain ⟨m', hbest', hchosen⟩ := exists_isChosen (lastText (equivalenceTerms imps)) ha
  obtain rfl : m = m' := Option.some.inj (hbest.symm.trans hbest')
  have hshortest (s : TermSource) (hs : s ∈ c) (hdesirable : isUndesirable (text s) = false) :
      isUndesirable (text m) = false ∧ (text m).utf8ByteSize ≤ (text s).utf8ByteSize := by
    have hshorter := hchosen.shortest s (List.mem_mergeSort.mpr hs)
    rw [hsame s hs, hsame m hm] at hshorter
    exact hshorter hdesirable
  refine ⟨m, hm, hunique, ?_, fun hall s hs => ?_⟩
  · rintro ⟨s, hs, hdesirable⟩
    exact ⟨(hshortest s hs hdesirable).1, fun t ht hdesirable => (hshortest t ht hdesirable).2⟩
  · refine TermSource.isLE_of_getLast? (hchosen.last ?_) hs
    rw [hsame m hm]
    exact hall m hm

/-- Two properties are equivalent to a third one about a result, and all three imply a fourth. -/
def plainText : TermSource → String
  | .invariant _ 0 => "return == 1"
  | .invariant _ 1 => "y == 1"
  | .invariant _ 2 => "x > 0"
  | _ => "z == 0"

def plainTerm (id : Nat) : Term where
  source := .invariant 0 id
  formula := ⟨[], none⟩
  text := plainText (.invariant 0 id)
  prover := none
  justified := true

def plainTerms : List Implication :=
  [⟨plainTerm 0, plainTerm 1, true⟩, ⟨plainTerm 1, plainTerm 2, true⟩,
    ⟨plainTerm 1, plainTerm 3, false⟩, ⟨plainTerm 2, plainTerm 3, false⟩,
    ⟨plainTerm 0, plainTerm 3, false⟩]

/-- The shorter one of the two that are not about the result represents all three. -/
theorem representative_shortest_or_last_plain :
    TermSource.invariant 0 2 ∈ representatives plainTerms ∧
      TermSource.invariant 0 0 ∉ representatives plainTerms ∧
      TermSource.invariant 0 1 ∉ representatives plainTerms := by
  have htext : ∀ i ∈ plainTerms, i.predicate.text = plainText i.predicate.source ∧
      i.consequent.text = plainText i.consequent.source := by decide +kernel
  have hclass : [TermSource.invariant 0 0, .invariant 0 1, .invariant 0 2] ∈ classes plainTerms := by
    decide +kernel
  obtain ⟨m, hm, hunique, hshortest, -⟩ := representative_shortest_or_last htext hclass
  obtain ⟨hdesirable, hleast⟩ := hshortest ⟨.invariant 0 1, by decide +kernel, by decide +kernel⟩
  have hthird := hleast (.invariant 0 2) (by decide +kernel) (by decide +kernel)
  obtain rfl : m = .invariant 0 2 := by
    rcases List.mem_cons.mp hm with rfl | hm
    · exact absurd hdesirable (by decide +kernel)
    rcases List.mem_pair.mp hm with rfl | rfl
    · exact absurd hthird (by decide +kernel)
    · rfl
  have hfirst := hunique (.invariant 0 0) (by decide)
  have hsecond := hunique (.invariant 0 1) (by decide)
  exact ⟨(hunique _ hm).mpr rfl, fun h => by simpa using hfirst.mp h,
    fun h => by simpa using hsecond.mp h⟩

end Text

end Implication

/-! ## A class in which no text is desirable -/

namespace Context

open Contrast

section Undesirable

/-- A point is split by the result of a call. The other variable takes a value in both children, and
one more in the second. -/
def results : List Action :=
  [.addPoint "P" [{ name := "return", type := .int }, { name := "y", type := .int }],
    .split 0 [.compare "return" .gt 100],
    .add 0 ⟨[some ⟨.int 5, true⟩, some ⟨.int 3, true⟩]⟩ 3,
    .add 0 ⟨[some ⟨.int 500, true⟩, some ⟨.int 3, true⟩]⟩ 3,
    .add 0 ⟨[some ⟨.int 500, true⟩, some ⟨.int 4, true⟩]⟩ 3]

/-- The child of a point that is split by a bound of one of two variables, after values of both. -/
def boundedChild (x : String) (bound : Int64) (polarity : Bool) (xs ys : List Int64)
    (samples : Nat) : Point where
  name := childName "P" (.compare x .gt bound) polarity
  kind := .conditional 0 (.compare x .gt bound) polarity
  catalog := .ofList [{ name := x, type := .int }, { name := "y", type := .int }]
  slices := [valueSlice 0 xs samples, valueSlice 1 ys samples]
  samples := samples
  viewsOpen := true
  nextId := 2

theorem matchSlices_boundedChild {x : String} {bound : Int64} {us vs ws zs : List Int64} {n m : Nat}
    (hne : x ≠ "y") (hle : (compareSliceNames [x] ["y"]).isLE) :
    matchSlices (boundedChild x bound false us vs n) (boundedChild x bound true ws zs m) =
      [(some ⟨[x], valueSlice 0 us n⟩, some ⟨[x], valueSlice 0 ws m⟩),
        (some ⟨["y"], valueSlice 1 vs n⟩, some ⟨["y"], valueSlice 1 zs m⟩)] := by
  have hnamed (polarity : Bool) (xs ys : List Int64) (samples : Nat) :
      (boundedChild x bound polarity xs ys samples).namedSlices =
        [⟨[x], valueSlice 0 xs samples⟩, ⟨["y"], valueSlice 1 ys samples⟩] := rfl
  unfold matchSlices
  rw [matchBy_of_keys [[x], ["y"]], hnamed, hnamed]
  · simp [hne.symm]
  · rw [hnamed, hnamed]
    simp [List.eraseDups_cons, hne.symm]
  · simp [hle]

/-- What is built from two children, each once. -/
def builtFrom (l r : Nat × Point) : List Implication :=
  (ofChildren l r).implications.foldl
    (fun held i => if i ∈ held then held else held ++ [i]) []

theorem implications_contrasted_of_pair {ctx : Context} {p : Point} {l r : Nat × Point}
    (h : siblingPairs (ctx.sampledChildren p) = [(l, r)])
    (hconfig : ctx.config.addNonimplications = false) (hnone : p.implications = []) :
    (ctx.contrasted p).implications = Implication.canonicalize (builtFrom l r) := by
  rw [contrasted_of_pair h hconfig, Point.addImplications, hnone]
  rfl

def builtResults : List Implication :=
  builtFrom (1, boundedChild "return" 100 false [5] [3] 3)
    (2, boundedChild "return" 100 true [500] [3, 4] 6)

def resultText : TermSource → String
  | .condition 1 => "return <= 100"
  | .condition _ => "return > 100"
  | .invariant 1 0 => "return == 5"
  | .invariant 1 _ => "y == 3"
  | .invariant _ 0 => "return == 500"
  | .invariant _ _ => "y one of \x7b 3, 4 \x7d"

theorem classes_results :
    (∀ i ∈ builtResults, i.predicate.text = resultText i.predicate.source ∧
      i.consequent.text = resultText i.consequent.source) ∧
    Implication.classes builtResults =
      [[.condition 1, .invariant 1 0], [.condition 2, .invariant 2 0]] ∧
    Implication.isPreferred
      (Implication.lastText (Implication.equivalenceTerms builtResults) (.invariant 1 0))
      (Implication.lastText (Implication.equivalenceTerms builtResults) (.condition 1)) := by
  unfold builtResults builtFrom ofChildren
  simp only [matchSlices_boundedChild (x := "return") (by decide) (by decide +kernel),
    List.map_cons, List.map_nil, ofSlices]
  rw [matchBy_of_keys [⟨["return"], some ⟨.oneOf, "5"⟩⟩, ⟨["return"], some ⟨.oneOf, "500"⟩⟩]
      (by decide +kernel) (by decide +kernel),
    matchBy_of_keys [⟨["y"], some ⟨.oneOf, "3"⟩⟩, ⟨["y"], some ⟨.oneOf, "3, 4"⟩⟩]
      (by decide +kernel) (by decide +kernel)]
  decide +kernel

/-- Both texts of a class are about the result, and the longer one stands for it. -/
theorem longer_representative :
    let ctx := ofValues.after results
    ∃ p imps c m s, ctx.points[0]? = some p ∧
      (ctx.contrasted p).implications = Implication.canonicalize imps ∧
      (∀ i ∈ imps, i.predicate.text = resultText i.predicate.source ∧
        i.consequent.text = resultText i.consequent.source) ∧
      c ∈ Implication.classes imps ∧ (∀ t ∈ c, Implication.isUndesirable (resultText t)) ∧
      m ∈ c ∧ m ∈ Implication.representatives imps ∧ s ∈ c ∧
      (resultText s).utf8ByteSize < (resultText m).utf8ByteSize := by
  intro ctx
  obtain ⟨p, hp, hholds⟩ := Option.map_eq_some_iff.mp
    (show ctx.points[0]?.map (fun p => (p.children, p.implications)) = some ([1, 2], []) by
      decide +kernel)
  obtain ⟨hchildren, hnone⟩ := Prod.mk.inj hholds
  have hpairs : siblingPairs (ctx.sampledChildren p) =
      [((1, boundedChild "return" 100 false [5] [3] 3),
        (2, boundedChild "return" 100 true [500] [3, 4] 6))] := by
    unfold sampledChildren
    rw [hchildren]
    decide +kernel
  obtain ⟨htext, hclasses, hpreferred⟩ := classes_results
  have hclass : [TermSource.condition 1, .invariant 1 0] ∈ Implication.classes builtResults := by
    rw [hclasses]
    decide
  refine ⟨p, builtResults, [.condition 1, .invariant 1 0], .condition 1, .invariant 1 0, hp,
    implications_contrasted_of_pair hpairs (by decide +kernel) hnone, htext, hclass,
    by decide +kernel, by decide, ?_, by decide, by decide +kernel⟩
  rw [Implication.mem_representatives]
  exact ⟨_, hclass, by rw [Implication.best_pair rfl, if_pos hpreferred]⟩

end Undesirable

end Context

end LikelyInvariants
