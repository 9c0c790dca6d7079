import LikelyInvariants.Text.Dialect
import Mathlib.Data.List.Basic

/-!
# Reading symbols back

How the prover reads a symbol, and what it makes of the symbols of names.

A symbol that begins with a bar goes to the next bar, and a backslash makes the character after it
stand for itself (`readBarred`). The bars of a name get a backslash (`escapeBar`), its backslashes do
not. So a name without backslashes is read as it is (`readBarred_flatMap_of_notMem`). One with a
backslash is not: either the reader stops elsewhere than at the last bar, or a backslash took the
character after it and the name that is read is too short (`length_lt_of_readBarred`). Where the
reader stopped matters for that, since the text after the symbol may have bars of its own: a reader
that runs over the last bar leaves less than this text (`length_lt_of_readBarred_eq_some`).
-/

namespace LikelyInvariants

/-! ## The reader -/

section Reader

/-- Reads a name up to the bar that ends it, behind the first bar. Gives the name and the text after
it. -/
def readBarred : List Char → Option (List Char × List Char)
  | [] => none
  | '|' :: text => some ([], text)
  | ['\\'] => none
  | '\\' :: c :: text => (readBarred text).map (Prod.map (c :: ·) id)
  | c :: text => (readBarred text).map (Prod.map (c :: ·) id)

/-- The characters that end a symbol without bars. -/
def isSymbolEnd (c : Char) : Bool := c.isWhitespace || c == '(' || c == ')'

/-- Reads a symbol at the front of a text. Gives the name it stands for and the text after it. -/
def readSymbol : List Char → Option (List Char × List Char)
  | '|' :: text => readBarred text
  | text =>
    let name := text.takeWhile (!isSymbolEnd ·)
    if name.isEmpty then none else some (name, text.dropWhile (!isSymbolEnd ·))

/-- What stands after a symbol in a formula: a blank or a closing parenthesis, and more. -/
def FollowsSymbol (rest : List Char) : Prop :=
  ∃ c text, rest = c :: text ∧ (c.isWhitespace ∨ c = ')')

theorem readBarred_bar (text : List Char) : readBarred ('|' :: text) = some ([], text) := by
  simp [readBarred]

theorem readBarred_escaped (c : Char) (text : List Char) :
    readBarred ('\\' :: c :: text) = (readBarred text).map (Prod.map (c :: ·) id) := by
  simp [readBarred]

theorem readBarred_plain {c : Char} (hbar : c ≠ '|') (hslash : c ≠ '\\') (text : List Char) :
    readBarred (c :: text) = (readBarred text).map (Prod.map (c :: ·) id) := by
  rw [readBarred] <;> simp [hbar, hslash]

/-- What a reader of one more character read. -/
theorem map_cons_eq_some {c : Char} {read : Option (List Char × List Char)}
    {name rest : List Char} (h : read.map (Prod.map (c :: ·) id) = some (name, rest)) :
    ∃ name', read = some (name', rest) ∧ name = c :: name' := by
  obtain ⟨⟨name', rest'⟩, hread, heq⟩ := Option.map_eq_some_iff.mp h
  obtain ⟨rfl, rfl⟩ := Prod.mk.inj heq
  exact ⟨name', hread, rfl⟩

/-- At least the bar that ends the name is gone. -/
theorem length_lt_of_readBarred_eq_some {text name rest : List Char}
    (h : readBarred text = some (name, rest)) : rest.length < text.length := by
  induction text using readBarred.induct generalizing name with
  | case1 | case3 => simp [readBarred] at h
  | case2 text =>
    obtain ⟨-, rfl⟩ : [] = name ∧ text = rest := by simpa [readBarred_bar] using h
    exact Nat.lt_succ_self _
  | case4 c text ih =>
    obtain ⟨_, hread, -⟩ := map_cons_eq_some ((readBarred_escaped c text).symm.trans h)
    have := ih hread
    simp only [List.length_cons]
    omega
  | case5 c text hbar hlast hescape ih =>
    have hslash : c ≠ '\\' := by
      cases text with
      | nil => exact fun hc => hlast hc rfl
      | cons d text => exact fun hc => hescape d text hc rfl
    obtain ⟨_, hread, -⟩ := map_cons_eq_some ((readBarred_plain hbar hslash text).symm.trans h)
    exact Nat.lt_succ_of_lt (ih hread)

end Reader

/-! ## Symbols of names -/

section Names

variable {rest : List Char}

/-- A character of a name between bars. -/
def escapeBar (c : Char) : List Char := if c = '|' then ['\\', '|'] else [c]

/-- A symbol is the name itself, or the name between bars. -/
theorem toList_proverSymbol (name : String) :
    ((proverSymbol name).toList = name.toList ∧ name.toList ≠ [] ∧
        ∀ c ∈ name.toList, isSymbolChar c) ∨
      (proverSymbol name).toList = '|' :: (name.toList.flatMap escapeBar ++ ['|']) := by
  unfold proverSymbol
  split
  · next hplain =>
    rw [Bool.and_eq_true, Bool.not_eq_true', List.all_eq_true] at hplain
    refine .inl ⟨rfl, fun hnil => ?_, hplain.2⟩
    rw [String.toList_eq_nil_iff.mp hnil] at hplain
    exact absurd hplain.1 (by decide)
  · exact .inr String.toList_ofList

/-- A bar of the name is read as a bar. -/
theorem readBarred_escapeBar {c : Char} (h : c ≠ '\\') (text : List Char) :
    readBarred (escapeBar c ++ text) = (readBarred text).map (Prod.map (c :: ·) id) := by
  unfold escapeBar
  split
  · next hbar => rw [hbar]; exact readBarred_escaped '|' text
  · next hbar => exact readBarred_plain hbar h text

/-- Names without backslashes are read as they are. -/
theorem readBarred_flatMap_of_notMem {name : List Char} (h : '\\' ∉ name) :
    readBarred (name.flatMap escapeBar ++ '|' :: rest) = some (name, rest) := by
  induction name with
  | nil => exact readBarred_bar rest
  | cons c name ih =>
    obtain ⟨hc, hname⟩ := not_or.mp (mt List.mem_cons.mpr h)
    rw [List.flatMap_cons, List.append_assoc, readBarred_escapeBar (Ne.symm hc), ih hname]
    rfl

/-- A backslash before a bar of the name makes that bar the last one, and the character after any
other backslash is all that is left of the two. -/
theorem readBarred_slash_escapeBar (c : Char) (text : List Char) :
    readBarred ('\\' :: (escapeBar c ++ text)) =
      if c = '|' then some (['\\'], text) else (readBarred text).map (Prod.map (c :: ·) id) := by
  unfold escapeBar
  split
  · rw [List.cons_append, readBarred_escaped, List.singleton_append, readBarred_bar]
    rfl
  · exact readBarred_escaped c text

/-- A backslash at the end of the name makes the last bar a part of it, and the reader goes on in the
text after it. -/
theorem readBarred_slash_bar_ne (read : List Char) :
    readBarred ('\\' :: '|' :: rest) ≠ some (read, rest) := by
  intro h
  obtain ⟨_, hread, -⟩ := map_cons_eq_some ((readBarred_escaped '|' rest).symm.trans h)
  exact Nat.lt_irrefl _ (length_lt_of_readBarred_eq_some hread)

/-- If the reader stops at the last bar, what it read is not longer than the name, and it is shorter
if the name has a backslash. -/
theorem length_of_readBarred {name read : List Char}
    (h : readBarred (name.flatMap escapeBar ++ '|' :: rest) = some (read, rest)) :
    read.length ≤ name.length ∧ ('\\' ∈ name → read.length < name.length) := by
  -- a backslash takes the character after it as well, so one step may go on two characters later
  induction hlength : name.length using Nat.strongRecOn generalizing name read with
  | ind n ih =>
    subst hlength
    cases name with
    | nil =>
      rw [List.flatMap_nil, List.nil_append, readBarred_bar] at h
      obtain ⟨rfl, -⟩ := Prod.mk.inj (Option.some.inj h)
      simp
    | cons c name =>
      rw [List.flatMap_cons, List.append_assoc] at h
      by_cases hslash : c = '\\'
      · subst hslash
        cases name with
        | nil => exact absurd h (readBarred_slash_bar_ne read)
        | cons d name =>
          have hlt : read.length ≤ name.length + 1 := by
            rw [List.flatMap_cons, List.append_assoc] at h
            replace h := (readBarred_slash_escapeBar d _).symm.trans h
            split at h
            · obtain ⟨rfl, -⟩ := Prod.mk.inj (Option.some.inj h)
              exact Nat.succ_le_succ (Nat.zero_le _)
            · obtain ⟨read, hread, rfl⟩ := map_cons_eq_some h
              have hshorter : name.length < ('\\' :: d :: name).length :=
                Nat.lt_succ_of_lt (Nat.lt_succ_self _)
              exact Nat.succ_le_succ (ih name.length hshorter hread rfl).1
          simp only [List.length_cons]
          omega
      · rw [readBarred_escapeBar hslash] at h
        obtain ⟨read, hread, rfl⟩ := map_cons_eq_some h
        obtain ⟨hle, hlt⟩ := ih name.length (Nat.lt_succ_self _) hread rfl
        simp only [List.length_cons, List.mem_cons, Ne.symm hslash, false_or]
        exact ⟨Nat.succ_le_succ hle, fun hmem => Nat.succ_lt_succ (hlt hmem)⟩

/-- A plain character does not end a symbol, and is neither a bar nor a backslash. -/
theorem isSymbolChar_facts {c : Char} (h : isSymbolChar c) :
    isSymbolEnd c = false ∧ c ≠ '|' ∧ c ≠ '\\' := by
  refine ⟨Bool.eq_false_iff.mpr fun hend => ?_, ?_, ?_⟩
  · have hstop : ((((c = ' ' ∨ c = '\t') ∨ c = '\r') ∨ c = '\n') ∨ c = '(') ∨ c = ')' := by
      simpa [isSymbolEnd, Char.isWhitespace] using hend
    rcases hstop with ((((rfl | rfl) | rfl) | rfl) | rfl) | rfl <;> exact absurd h (by decide)
  all_goals
    rintro rfl
    exact absurd h (by decide)

/-- Plain names are read as they are. -/
theorem readSymbol_of_plain {name : List Char} (hne : name ≠ [])
    (hplain : ∀ c ∈ name, isSymbolChar c) (hrest : FollowsSymbol rest) :
    readSymbol (name ++ rest) = some (name, rest) := by
  obtain ⟨c, cs, rfl⟩ := List.exists_cons_of_ne_nil hne
  obtain ⟨e, text, rfl, he⟩ := hrest
  have hgo : ∀ d ∈ c :: cs, (!isSymbolEnd d) = true := fun d hd => by
    rw [(isSymbolChar_facts (hplain d hd)).1, Bool.not_false]
  have hstop : ¬(!isSymbolEnd e) = true := by
    rcases he with he | rfl
    · simp [isSymbolEnd, he]
    · decide
  have htake : (c :: cs ++ e :: text).takeWhile (!isSymbolEnd ·) = c :: cs := by
    rw [List.takeWhile_append_of_pos hgo, List.takeWhile_cons_of_neg (p := (!isSymbolEnd ·)) hstop,
      List.append_nil]
  have hdrop : (c :: cs ++ e :: text).dropWhile (!isSymbolEnd ·) = e :: text := by
    rw [List.dropWhile_append_of_pos hgo, List.dropWhile_cons_of_neg (p := (!isSymbolEnd ·)) hstop]
  have hbar := (isSymbolChar_facts (hplain c List.mem_cons_self)).2.1
  rw [readSymbol, htake, hdrop]
  · rfl
  · exact fun _ heq => hbar (List.cons.inj heq).1

/-- A name is read back from its symbol exactly if it has no backslash. -/
theorem readSymbol_eq_iff (name : String) (hrest : FollowsSymbol rest) :
    readSymbol ((proverSymbol name).toList ++ rest) = some (name.toList, rest) ↔
      '\\' ∉ name.toList := by
  rcases toList_proverSymbol name with ⟨hsymbol, hne, hplain⟩ | hsymbol <;> rw [hsymbol]
  · have hslash : '\\' ∉ name.toList := fun h => (isSymbolChar_facts (hplain _ h)).2.2 rfl
    exact iff_of_true (readSymbol_of_plain hne hplain hrest) hslash
  · rw [List.cons_append, List.append_assoc, List.singleton_append]
    refine ⟨fun h hslash => ?_, fun h => readBarred_flatMap_of_notMem h⟩
    exact Nat.lt_irrefl _ ((length_of_readBarred h).2 hslash)

/-- **A name is read back from its symbol exactly if it has no backslash.** Then the prover reads the
name, whatever else is in it, and goes on with the text that stands after the symbol. So two such
names are never the same symbol to the prover. -/
theorem readSymbol_proverSymbol_iff (name : String) {rest : List Char}
    (hrest : FollowsSymbol rest) :
    (readSymbol ((proverSymbol name).toList ++ rest) = some (name.toList, rest) ↔
        '\\' ∉ name.toList) ∧
      ∀ {other : String} {rest' : List Char}, FollowsSymbol rest' → '\\' ∉ name.toList →
        '\\' ∉ other.toList →
        (readSymbol ((proverSymbol name).toList ++ rest)).map Prod.fst =
          (readSymbol ((proverSymbol other).toList ++ rest')).map Prod.fst → name = other := by
  refine ⟨readSymbol_eq_iff name hrest, fun {other rest'} hrest' hname hother h => ?_⟩
  rw [(readSymbol_eq_iff name hrest).mpr hname, (readSymbol_eq_iff other hrest').mpr hother] at h
  exact String.toList_inj.mp (Option.some.inj h)

/-- A name with a bar, a blank and a parenthesis, in the text of a formula. -/
theorem readSymbol_proverSymbol_parenthesis :
    readSymbol ((proverSymbol "a|b (c").toList ++ " y)".toList) =
      some ("a|b (c".toList, " y)".toList) :=
  (readSymbol_proverSymbol_iff "a|b (c" ⟨' ', _, rfl, .inl (by decide)⟩).1.mpr
    (by decide)

/-- A name that is a backslash takes the bar that ends it into the symbol, and the symbol after it
becomes a part of the formula's text. Two names, one with a backslash, are one symbol. -/
theorem readSymbol_proverSymbol_backslash :
    readSymbol ((proverSymbol "\\").toList ++ " |a b|)".toList) =
        some ("| ".toList, "a b|)".toList) ∧
      readSymbol ((proverSymbol "\\a b").toList ++ ")".toList) =
        readSymbol ((proverSymbol "a b").toList ++ ")".toList) := by
  decide

end Names

end LikelyInvariants
