import LikelyInvariants.Proofs.Text.Delimited
import LikelyInvariants.Proofs.Text.Symbol
import LikelyInvariants.Prover.Command

/-!
# Formulas of equations

A formula that says of some pairs of variables that they are equal, and when it is true. Which names
it was made from can be told from its text (`equations_injective`), so its truth is a property of
the text (`equationsHold_equations`).

Texts are taken apart from the back here. A symbol between bars may have a backslash before its last
bar, so from the front it is not clear whether that bar is part of the name. From the back it is: the
first bar has a blank before it, and every bar of the name has a backslash.
-/

namespace LikelyInvariants

/-- The formula that says that the variables of two names are equal. -/
def equation (x : String × String) : String := s!"(EQ {proverSymbol x.1} {proverSymbol x.2})"

/-- The formula that says this of some pairs of names. -/
def equations (xs : List (String × String)) : String := conjunction (xs.map equation)

/-- With these values of the variables, a formula is true that says that variables are equal. -/
def EquationsHold {V : Type} (value : String → V) (formula : String) : Prop :=
  ∃ xs, formula = equations xs ∧ ∀ x ∈ xs, value x.1 = value x.2

/-! ## Symbols -/

section Symbols

/-- A character of a name between bars, from the back. -/
def barBackwards (c : Char) : List Char := c :: if c = '|' then ['\\'] else []

/-- A symbol is the name itself, or the name between bars. -/
theorem reverse_proverSymbol (name : String) :
    ((proverSymbol name).toList.reverse = name.toList.reverse ∧ name.toList ≠ [] ∧
        ∀ c ∈ name.toList, isSymbolChar c) ∨
      (proverSymbol name).toList.reverse =
        '|' :: (name.toList.reverse.flatMap barBackwards ++ ['|']) := by
  rcases toList_proverSymbol name with ⟨hsymbol, hplain⟩ | hsymbol <;> rw [hsymbol]
  · exact .inl ⟨rfl, hplain⟩
  · right
    have hchar : List.reverse ∘ escapeBar = barBackwards := by
      funext c
      unfold barBackwards
      rw [Function.comp_apply, escapeBar]
      split
      · next hbar => rw [hbar]; rfl
      · rfl
    rw [List.reverse_cons, List.reverse_append, List.reverse_flatMap, hchar]
    rfl

/-- The first bar of a symbol has a blank before it, another bar has a backslash. -/
theorem flatMap_barBackwards_inj {as bs l r : List Char}
    (h : as.flatMap barBackwards ++ '|' :: ' ' :: l = bs.flatMap barBackwards ++ '|' :: ' ' :: r) :
    as = bs ∧ l = r := by
  have hfirst {a : Char} {l r : List Char} (h : '|' :: ' ' :: l = barBackwards a ++ r) : False := by
    obtain ⟨hbar, hblank⟩ := List.cons.inj h
    rw [if_pos hbar.symm] at hblank
    exact absurd (List.cons.inj hblank).1 (by decide)
  induction as generalizing bs with
  | nil =>
    cases bs with
    | nil => simpa using h
    | cons b bs =>
      rw [List.flatMap_cons, List.append_assoc] at h
      exact (hfirst h).elim
  | cons a as ih =>
    cases bs with
    | nil =>
      rw [List.flatMap_cons, List.append_assoc] at h
      exact (hfirst h.symm).elim
    | cons b bs =>
      rw [List.flatMap_cons, List.flatMap_cons, List.append_assoc, List.append_assoc] at h
      obtain rfl : a = b := (List.cons.inj h).1
      obtain ⟨rfl, htail⟩ := ih (List.append_cancel_left h)
      exact ⟨rfl, htail⟩

/-- From the back, a symbol ends at a blank that can be told from the text. -/
theorem reverse_proverSymbol_append_inj {m n : String} {l r : List Char}
    (h : (proverSymbol m).toList.reverse ++ ' ' :: l = (proverSymbol n).toList.reverse ++ ' ' :: r) :
    m = n ∧ l = r := by
  have hmixed {m : String} {l r : List Char} (hne : m.toList ≠ [])
      (hplain : ∀ c ∈ m.toList, isSymbolChar c) (h : m.toList.reverse ++ l = '|' :: r) : False := by
    obtain ⟨c, cs, hcs⟩ := List.exists_cons_of_ne_nil (List.reverse_ne_nil_iff.mpr hne)
    rw [hcs] at h
    obtain rfl := (List.cons.inj h).1
    have hbar := hplain '|' (List.mem_reverse.mp (by rw [hcs]; exact List.mem_cons_self))
    exact absurd hbar (by decide)
  have hblank {m : String} (hplain : ∀ c ∈ m.toList, isSymbolChar c) :
      ∀ c ∈ m.toList.reverse, ¬c = ' ' := by
    rintro c hc rfl
    exact absurd (hplain ' ' (List.mem_reverse.mp hc)) (by decide)
  rcases reverse_proverSymbol m with ⟨hm, hne, hplain⟩ | hm <;>
    rcases reverse_proverSymbol n with ⟨hn, hne', hplain'⟩ | hn <;> rw [hm, hn] at h
  · obtain ⟨hname, htail⟩ :=
      append_inj_of_stop (hblank hplain) (hblank hplain') (by simp) (by simp) h
    exact ⟨String.toList_inj.mp (List.reverse_inj.mp hname), (List.cons.inj htail).2⟩
  · exact (hmixed hne hplain h).elim
  · exact (hmixed hne' hplain' h.symm).elim
  · simp only [List.cons_append, List.append_assoc, List.cons.injEq, true_and,
      List.nil_append] at h
    obtain ⟨hname, htail⟩ := flatMap_barBackwards_inj h
    exact ⟨String.toList_inj.mp (List.reverse_inj.mp hname), htail⟩

end Symbols

/-! ## Formulas -/

section Formulas

/-- An equation with the blank before it, from the back. -/
def equationBackwards (x : String × String) : List Char :=
  ')' :: ((proverSymbol x.2).toList.reverse ++
    ' ' :: ((proverSymbol x.1).toList.reverse ++ ' ' :: "QE( ".toList))

theorem reverse_equation (x : String × String) :
    (' ' :: (equation x).toList).reverse = equationBackwards x := by
  simp [equation, equationBackwards, toString]

/-- From the back, a conjunction is its equations, the last one first. -/
theorem reverse_equations {xs : List (String × String)} (hne : xs ≠ []) :
    (equations xs).toList.reverse =
      ')' :: (xs.reverse.flatMap equationBackwards ++ "DNA(".toList) := by
  obtain ⟨x, xs, rfl⟩ := List.exists_cons_of_ne_nil hne
  have hblank : (equations (x :: xs)).toList =
      "(AND".toList ++ ((x :: xs).flatMap fun y => ' ' :: (equation y).toList) ++ [')'] := by
    simp [equations, conjunction, String.toList_intercalate, intercalate_cons_eq_append,
      List.flatMap_map]
  have hbackwards : List.reverse ∘ (fun y => ' ' :: (equation y).toList) = equationBackwards :=
    funext reverse_equation
  rw [hblank, List.reverse_append, List.reverse_append, List.reverse_flatMap, hbackwards]
  rfl

theorem flatMap_equationBackwards_inj {xs ys : List (String × String)}
    (h : xs.flatMap equationBackwards ++ "DNA(".toList =
      ys.flatMap equationBackwards ++ "DNA(".toList) : xs = ys := by
  induction xs generalizing ys with
  | nil =>
    cases ys with
    | nil => rfl
    | cons y ys => exact absurd (List.cons.inj h).1 (by decide)
  | cons x xs ih =>
    cases ys with
    | nil => exact absurd (List.cons.inj h).1 (by decide)
    | cons y ys =>
      simp only [List.flatMap_cons, equationBackwards, List.cons_append, List.append_assoc,
        List.cons.injEq, true_and] at h
      obtain ⟨hsecond, h⟩ := reverse_proverSymbol_append_inj h
      obtain ⟨hfirst, h⟩ := reverse_proverSymbol_append_inj h
      rw [Prod.ext hfirst hsecond, ih (List.append_cancel_left h)]

/-- Which equations a formula consists of can be told from its text. -/
theorem equations_injective : Function.Injective equations := by
  -- without equations there is a blank before the last bracket
  have hnil {ys : List (String × String)} (h : equations [] = equations ys) : ys = [] := by
    cases ys with
    | nil => rfl
    | cons y ys =>
      have hne : y :: ys ≠ [] := List.cons_ne_nil y ys
      have hreverse := congrArg (fun f : String => f.toList.reverse) h
      obtain ⟨z, zs, hz⟩ := List.exists_cons_of_ne_nil (List.reverse_ne_nil_iff.mpr hne)
      rw [reverse_equations hne, hz] at hreverse
      exact absurd (List.cons.inj (List.cons.inj hreverse).2).1 (by decide)
  intro xs ys h
  by_cases hxs : xs = []
  · subst hxs
    exact (hnil h).symm
  by_cases hys : ys = []
  · subst hys
    exact hnil h.symm
  have hreverse := congrArg (fun f : String => f.toList.reverse) h
  rw [reverse_equations hxs, reverse_equations hys] at hreverse
  exact List.reverse_inj.mp (flatMap_equationBackwards_inj (List.cons.inj hreverse).2)

/-- A formula of equations is true if all of them are. -/
theorem equationsHold_equations {V : Type} {value : String → V} {xs : List (String × String)} :
    EquationsHold value (equations xs) ↔ ∀ x ∈ xs, value x.1 = value x.2 := by
  refine ⟨?_, fun h => ⟨xs, rfl, h⟩⟩
  rintro ⟨ys, hys, h⟩
  rwa [equations_injective hys]

end Formulas

end LikelyInvariants
