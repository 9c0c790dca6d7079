import LikelyInvariants.Splitter

/-!
# The texts of conditions

The children of a point are told apart by the texts of their conditions. That is enough: a condition
is written as a variable, an operator and an operand, with spaces between them, and neither of the
last two contains a space. So the text of a condition says which one it is, whatever the name of the
variable (`Splitter.condition_injective`).
-/

namespace LikelyInvariants

/-! ## Texts of numbers -/

theorem repr_nat_injective {m n : Nat} (h : m.repr = n.repr) : m = n := by
  have hdigits := congrArg (fun s : String => Nat.ofDigitChars 10 s.toList 0) h
  simpa using hdigits

theorem isDigit_of_mem_repr {n : Nat} {c : Char} (h : c ∈ n.repr.toList) : c.isDigit := by
  rw [Nat.toList_repr] at h
  exact Nat.isDigit_of_mem_toDigits (by decide) (by decide) h

/-- An integer is written with digits and a sign. -/
theorem of_mem_repr {n : Int} {c : Char} (h : c ∈ n.repr.toList) : c.isDigit ∨ c = '-' := by
  rw [Int.repr_eq_if] at h
  split at h
  · exact .inl (isDigit_of_mem_repr h)
  · rw [String.toList_append] at h
    rcases List.mem_append.mp h with hsign | hdigit
    · exact .inr (by simpa using hsign)
    · exact .inl (isDigit_of_mem_repr hdigit)

theorem repr_ne_minus (m n : Nat) : m.repr ≠ "-" ++ n.repr := by
  intro h
  have hsign : '-' ∈ m.repr.toList := by simp [h]
  exact absurd (isDigit_of_mem_repr hsign) (by decide)

theorem repr_int_injective {m n : Int} (h : m.repr = n.repr) : m = n := by
  rw [Int.repr_eq_if, Int.repr_eq_if] at h
  by_cases hm : 0 ≤ m <;> by_cases hn : 0 ≤ n
  · rw [if_pos hm, if_pos hn] at h
    have hnat := repr_nat_injective h
    omega
  · rw [if_pos hm, if_neg hn] at h
    exact absurd h (repr_ne_minus _ _)
  · rw [if_neg hm, if_pos hn] at h
    exact absurd h.symm (repr_ne_minus _ _)
  · rw [if_neg hm, if_neg hn] at h
    have hnat := repr_nat_injective (String.append_right_inj "-" |>.mp h)
    omega

/-! ## Texts of conditions -/

/-- Where a separator occurs for the last time is determined by the text. -/
theorem append_cons_inj {α : Type} {l l' a a' : List α} {c : α} (ha : c ∉ a) (ha' : c ∉ a')
    (h : l ++ c :: a = l' ++ c :: a') : l = l' ∧ a = a' := by
  rcases List.append_eq_append_iff.mp h with ⟨m, rfl, hm⟩ | ⟨m, rfl, hm⟩
  · cases m with
    | nil => exact ⟨(List.append_nil l).symm, (List.cons.inj hm).2⟩
    | cons b m => exact absurd (by simp [(List.cons.inj hm).2]) ha
  · cases m with
    | nil => exact ⟨List.append_nil l', (List.cons.inj hm).2.symm⟩
    | cons b m => exact absurd (by simp [(List.cons.inj hm).2]) ha'

theorem Comparison.symbol_injective {op op' : Comparison} (h : op.symbol = op'.symbol) :
    op = op' := by
  cases op <;> cases op' <;> simp [symbol] at h ⊢

namespace Splitter

def symbol : Splitter → String
  | compare _ op _ => op.symbol
  | truth _ => "=="

/-- What the variable is compared with. -/
def operand : Splitter → String
  | compare _ _ k => k.toInt.repr
  | truth _ => "true"

theorem toList_condition (s : Splitter) : s.condition.toList =
    s.var.toList ++ ' ' :: (s.symbol.toList ++ ' ' :: s.operand.toList) := by
  cases s with
  | compare x op k =>
    have hparts : (compare x op k).condition = x ++ " " ++ op.symbol ++ " " ++ k.toInt.repr := rfl
    simp [hparts, var, symbol, operand]
  | truth x =>
    have hparts : (truth x).condition = x ++ " == true" := rfl
    simp [hparts, var, symbol, operand]

theorem space_notMem_symbol (s : Splitter) : ' ' ∉ s.symbol.toList := by
  cases s with
  | compare x op k => cases op <;> simp [symbol, Comparison.symbol]
  | truth x => simp [symbol]

theorem space_notMem_operand (s : Splitter) : ' ' ∉ s.operand.toList := by
  cases s with
  | compare x op k =>
    intro hmem
    rcases of_mem_repr hmem with hdigit | hminus
    · exact absurd hdigit (by decide)
    · exact absurd hminus (by decide)
  | truth x => simp [operand]

/-- A truth value is not compared with a number. -/
theorem true_ne_repr (n : Int) : "true" ≠ n.repr := by
  intro h
  have hletter : 't' ∈ n.repr.toList := by simp [← h]
  rcases of_mem_repr hletter with hdigit | hminus
  · exact absurd hdigit (by decide)
  · exact absurd hminus (by decide)

/-- The text of a condition says which one it is. -/
theorem condition_injective {s t : Splitter} (h : s.condition = t.condition) : s = t := by
  have htext := congrArg String.toList h
  rw [toList_condition, toList_condition, ← List.cons_append, ← List.append_assoc,
    ← List.cons_append, ← List.append_assoc] at htext
  obtain ⟨hfront, hoperand⟩ :=
    append_cons_inj s.space_notMem_operand t.space_notMem_operand htext
  obtain ⟨hvar, hsymbol⟩ := append_cons_inj s.space_notMem_symbol t.space_notMem_symbol hfront
  rw [String.toList_inj] at hvar hsymbol hoperand
  cases s with
  | compare x op k =>
    cases t with
    | compare y op' k' =>
      have hop : op = op' := Comparison.symbol_injective hsymbol
      have hconstant : k = k' := Int64.toInt_inj.mp (repr_int_injective hoperand)
      rw [show x = y from hvar, hop, hconstant]
    | truth y => exact absurd hoperand.symm (true_ne_repr _)
  | truth x =>
    cases t with
    | compare y op' k' => exact absurd hoperand (true_ne_repr _)
    | truth y => exact congrArg truth hvar

end Splitter

end LikelyInvariants
