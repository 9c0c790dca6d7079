import LikelyInvariants.Proofs.Splitter
import LikelyInvariants.Text.Quoted
import LikelyInvariants.Value
import Mathlib.Tactic.SplitIfs

/-!
# Texts that show where they end

Values are written one after the other, with commas between them and brackets around sequences. What
was written can be told from such a text if each item shows where it ends
(`IsDelimited`). A number ends where a comma or a bracket comes, since it has neither
(`isDelimited_of_notMem`). A quoted text can have commas and brackets inside, but it ends at the
first quote that stands alone: the written forms of characters are a prefix code, and none of them
begins with a quote (`Quoted.escape_append_inj`). A sequence ends at its own bracket, whatever its
items are (`IsDelimited.bracketed`).
-/

namespace LikelyInvariants

/-! ## Items of a list -/

section Items

variable {α β : Type} {valid : α → Prop} {write : α → List Char}

/-- What can follow an item: nothing, or a text that begins with a comma or a closing bracket. -/
def IsTail (r : List Char) : Prop := ∀ c ∈ r.head?, c = ',' ∨ c = ']'

/-- The texts of the valid things can be read off the front of a longer text. -/
structure IsDelimited (valid : α → Prop) (write : α → List Char) : Prop where
  /-- They are not empty, and do not begin with what can follow an item. -/
  starts : ∀ a, valid a → ∃ c cs, write a = c :: cs ∧ c ≠ ',' ∧ c ≠ ']'
  read : ∀ {a b r r'}, valid a → valid b → IsTail r → IsTail r' → write a ++ r = write b ++ r' →
    a = b ∧ r = r'

theorem isTail_cons {c : Char} {r : List Char} (h : c = ',' ∨ c = ']') : IsTail (c :: r) := by
  simpa [IsTail] using h

/-- Where a stop first comes is determined by the text. -/
theorem append_inj_of_stop {stop : Char → Prop} {l l' r r' : List Char} (hl : ∀ c ∈ l, ¬stop c)
    (hl' : ∀ c ∈ l', ¬stop c) (hr : ∀ c ∈ r.head?, stop c) (hr' : ∀ c ∈ r'.head?, stop c)
    (h : l ++ r = l' ++ r') : l = l' ∧ r = r' := by
  induction l generalizing l' with
  | nil =>
    cases l' with
    | nil => exact ⟨rfl, h⟩
    | cons c l' =>
      obtain rfl : r = c :: l' ++ r' := h
      exact absurd (hr c rfl) (hl' c List.mem_cons_self)
  | cons c l ih =>
    cases l' with
    | nil =>
      obtain rfl : c :: l ++ r = r' := h
      exact absurd (hr' c rfl) (hl c List.mem_cons_self)
    | cons c' l' =>
      obtain ⟨rfl, hrest⟩ := List.cons.inj h
      obtain ⟨rfl, hr⟩ := ih (fun d hd => hl d (List.mem_cons_of_mem c hd))
        (fun d hd => hl' d (List.mem_cons_of_mem c hd)) hrest
      exact ⟨rfl, hr⟩

/-- Texts without commas and brackets end where one of these comes. -/
theorem isDelimited_of_notMem (hne : ∀ a, valid a → write a ≠ [])
    (hfree : ∀ a, valid a → ∀ c ∈ write a, ¬(c = ',' ∨ c = ']'))
    (hinj : ∀ a b, valid a → valid b → write a = write b → a = b) : IsDelimited valid write where
  starts a ha := by
    obtain ⟨c, cs, hcs⟩ := List.exists_cons_of_ne_nil (hne a ha)
    exact ⟨c, cs, hcs, not_or.mp (hfree a ha c (by simp [hcs]))⟩
  read ha hb hr hr' h := by
    obtain ⟨hwrite, htail⟩ := append_inj_of_stop (hfree _ ha) (hfree _ hb) hr hr' h
    exact ⟨hinj _ _ ha hb hwrite, htail⟩

/-- Things that are wrapped are read as what they are inside. -/
theorem IsDelimited.wrap {inner : β → List Char} (h : IsDelimited (fun _ => True) inner)
    (wrap : β → α) (hvalid : ∀ a, valid a → ∃ b, wrap b = a) (hwrite : ∀ b, write (wrap b) = inner b) :
    IsDelimited valid write where
  starts a ha := by
    obtain ⟨b, rfl⟩ := hvalid a ha
    rw [hwrite]
    exact h.starts b trivial
  read ha hb hr hr' heq := by
    obtain ⟨a, rfl⟩ := hvalid _ ha
    obtain ⟨b, rfl⟩ := hvalid _ hb
    rw [hwrite, hwrite] at heq
    obtain ⟨rfl, htail⟩ := h.read trivial trivial hr hr' heq
    exact ⟨rfl, htail⟩

end Items

/-! ## Lists -/

section Lists

variable {α : Type} {valid : α → Prop} {write : α → List Char}

/-- Between parts, the separator stands before each part but the first. -/
theorem intercalate_cons_eq_append (sep l : List α) (ls : List (List α)) :
    sep.intercalate (l :: ls) = l ++ ls.flatMap fun m => sep ++ m := by
  induction ls generalizing l with
  | nil => simp
  | cons m ls ih => rw [List.intercalate_cons_cons, ih m, List.flatMap_cons, List.append_assoc,
      List.append_assoc]

/-- The items of a list, with commas between them. -/
def joined (write : α → List Char) (as : List α) : List Char :=
  [',', ' '].intercalate (as.map write)

theorem joined_cons (a : α) (as : List α) :
    joined write (a :: as) = write a ++ as.flatMap fun b => ',' :: ' ' :: write b := by
  unfold joined
  rw [List.map_cons, intercalate_cons_eq_append, List.flatMap_map]
  rfl

/-- What follows a list is nothing or a closing bracket. -/
theorem IsDelimited.flatMap_append_inj (h : IsDelimited valid write) {r r' : List Char}
    (hr : ∀ c ∈ r.head?, c = ']') (hr' : ∀ c ∈ r'.head?, c = ']') {as bs : List α}
    (has : ∀ a ∈ as, valid a) (hbs : ∀ b ∈ bs, valid b)
    (heq : (as.flatMap fun b => ',' :: ' ' :: write b) ++ r =
      (bs.flatMap fun b => ',' :: ' ' :: write b) ++ r') : as = bs ∧ r = r' := by
  -- what follows one item is the tail of an item
  have htail {r : List Char} (hr : ∀ c ∈ r.head?, c = ']') (as : List α) :
      IsTail ((as.flatMap fun b => ',' :: ' ' :: write b) ++ r) := by
    cases as with
    | nil => exact fun c hc => .inr (hr c hc)
    | cons a as => exact isTail_cons (.inl rfl)
  induction as generalizing bs with
  | nil =>
    cases bs with
    | nil => exact ⟨rfl, heq⟩
    | cons b bs =>
      obtain rfl : r = _ := heq
      exact absurd (hr _ rfl) (by decide)
  | cons a as ih =>
    cases bs with
    | nil =>
      obtain rfl : _ = r' := heq
      exact absurd (hr' _ rfl) (by decide)
    | cons b bs =>
      simp only [List.flatMap_cons, List.cons_append, List.append_assoc, List.cons.injEq,
        true_and] at heq
      obtain ⟨rfl, hrest⟩ := h.read (has a List.mem_cons_self) (hbs b List.mem_cons_self)
        (htail hr as) (htail hr' bs) heq
      obtain ⟨rfl, hr⟩ := ih (fun a ha => has a (List.mem_cons_of_mem _ ha))
        (fun b hb => hbs b (List.mem_cons_of_mem _ hb)) hrest
      exact ⟨rfl, hr⟩

/-- A list can be told from its text. -/
theorem IsDelimited.joined_append_inj (h : IsDelimited valid write) {r r' : List Char}
    (hr : ∀ c ∈ r.head?, c = ']') (hr' : ∀ c ∈ r'.head?, c = ']') {as bs : List α}
    (has : ∀ a ∈ as, valid a) (hbs : ∀ b ∈ bs, valid b)
    (heq : joined write as ++ r = joined write bs ++ r') : as = bs ∧ r = r' := by
  -- an item does not begin like what follows the list
  have hfirst {a : α} {as : List α} {r r' : List Char} (ha : valid a)
      (hr : ∀ c ∈ r.head?, c = ']') (heq : r = joined write (a :: as) ++ r') : False := by
    obtain ⟨c, cs, hcs, -, hbracket⟩ := h.starts a ha
    rw [joined_cons, hcs] at heq
    exact hbracket (hr c (by simp [heq]))
  cases as with
  | nil =>
    cases bs with
    | nil => exact ⟨rfl, heq⟩
    | cons b bs => exact (hfirst (hbs b List.mem_cons_self) hr heq).elim
  | cons a as =>
    cases bs with
    | nil => exact (hfirst (has a List.mem_cons_self) hr' heq.symm).elim
    | cons b bs =>
      refine h.flatMap_append_inj hr hr' has hbs ?_
      rw [joined_cons, joined_cons] at heq
      simpa using heq

/-- Sequences of delimited items are delimited by their brackets. -/
theorem IsDelimited.bracketed (h : IsDelimited (fun _ => True) write) :
    IsDelimited (fun _ => True) fun as => '[' :: (joined write as ++ [']']) where
  starts as _ := ⟨'[', _, rfl, by decide, by decide⟩
  read _ _ _ _ heq := by
    simp only [List.cons_append, List.append_assoc, List.cons.injEq, true_and] at heq
    obtain ⟨rfl, htail⟩ := h.joined_append_inj (by simp) (by simp) (by simp) (by simp) heq
    exact ⟨rfl, by simpa using htail⟩

end Lists

/-! ## Numbers -/

theorem repr_ne_nil (n : Int) : n.repr.toList ≠ [] := by
  rw [Int.repr_eq_if]
  split
  · rw [Nat.toList_repr]
    exact Nat.toDigits_ne_nil
  · simp

theorem not_stop_of_mem_repr {n : Int} {c : Char} (h : c ∈ n.repr.toList) :
    ¬(c = ',' ∨ c = ']') := by
  rcases of_mem_repr h with hdigit | rfl
  · rintro (rfl | rfl) <;> simp at hdigit
  · decide

/-- A number has no commas and brackets. -/
theorem isDelimited_int : IsDelimited (fun _ => True) fun n : Int64 => n.toInt.repr.toList :=
  isDelimited_of_notMem (fun _ _ => repr_ne_nil _) (fun _ _ _ => not_stop_of_mem_repr)
    fun _ _ _ _ h => Int64.toInt_inj.mp (repr_int_injective (String.toList_inj.mp h))

/-! ## Quoted texts -/

namespace Quoted

/-- The characters that have a letter, each with the letter. -/
def letters : List (Char × Char) :=
  [('"', '"'), ('\\', '\\'), ('\n', 'n'), ('\r', 'r'), ('\t', 't'), ('\x00', '0')]

/-- A character is written as itself, by its letter, or by its code point. -/
theorem escape_cases (c : Char) :
    (escape c = [c] ∧ c ≠ '"' ∧ c ≠ '\\') ∨
      (∃ letter, escape c = ['\\', letter] ∧ (c, letter) ∈ letters) ∨
      escape c = '\\' :: 'u' :: '\x7b' :: (Nat.toDigits 16 c.toNat ++ ['\x7d']) := by
  unfold escape
  split_ifs <;> simp_all [letters]

theorem digit_of_mem_toDigits {n : Nat} {c : Char} (h : c ∈ Nat.toDigits 16 n) :
    ∃ d < 16, c = Nat.digitChar d := by
  induction n using Nat.strongRecOn with
  | ind n ih =>
    rcases Nat.lt_or_ge n 16 with hlt | hge
    · rw [Nat.toDigits_of_lt_base hlt, List.mem_singleton] at h
      exact ⟨n, hlt, h⟩
    · rw [Nat.toDigits_of_base_le (by decide) hge, List.mem_append, List.mem_singleton] at h
      rcases h with h | h
      · exact ih (n / 16) (by omega) h
      · exact ⟨n % 16, by omega, h⟩

theorem digitChar_inj : ∀ d < 16, ∀ e < 16, Nat.digitChar d = Nat.digitChar e → d = e := by
  decide

theorem toDigits_inj {m n : Nat} (h : Nat.toDigits 16 m = Nat.toDigits 16 n) : m = n := by
  -- a single digit is not the last of several
  have hlength {m n : Nat} (hm : m < 16) (hn : 16 ≤ n)
      (h : Nat.toDigits 16 m = Nat.toDigits 16 n) : False := by
    rw [Nat.toDigits_of_lt_base hm, Nat.toDigits_of_base_le (by decide) hn] at h
    obtain ⟨hnil, -⟩ := List.append_inj' (show [] ++ [_] = _ from h) rfl
    exact Nat.toDigits_ne_nil hnil.symm
  induction m using Nat.strongRecOn generalizing n with
  | ind m ih =>
    rcases Nat.lt_or_ge m 16 with hm | hm <;> rcases Nat.lt_or_ge n 16 with hn | hn
    · rw [Nat.toDigits_of_lt_base hm, Nat.toDigits_of_lt_base hn, List.singleton_inj] at h
      exact digitChar_inj m hm n hn h
    · exact (hlength hm hn h).elim
    · exact (hlength hn hm h.symm).elim
    · rw [Nat.toDigits_of_base_le (by decide) hm, Nat.toDigits_of_base_le (by decide) hn] at h
      obtain ⟨hfront, hlast⟩ := List.append_inj' h rfl
      have hquotient := ih (m / 16) (by omega) hfront
      have hremainder := digitChar_inj (m % 16) (by omega) (n % 16) (by omega)
        (List.singleton_inj.mp hlast)
      omega

/-- The written forms of characters are a prefix code. -/
theorem escape_append_inj {a b : Char} {r r' : List Char} (h : escape a ++ r = escape b ++ r') :
    a = b ∧ r = r' := by
  have hletters : ∀ x ∈ letters, x.2 ≠ 'u' ∧ ∀ y ∈ letters, x.2 = y.2 → x = y := by decide
  rcases escape_cases a with ⟨ha, -, hslash⟩ | ⟨l, ha, hl⟩ | ha <;>
    rcases escape_cases b with ⟨hb, -, hslash'⟩ | ⟨l', hb, hl'⟩ | hb <;>
    rw [ha, hb] at h
  · simpa using h
  · exact absurd (List.cons.inj h).1 hslash
  · exact absurd (List.cons.inj h).1 hslash
  · exact absurd (List.cons.inj h).1.symm hslash'
  · obtain ⟨-, hletter, hrest⟩ : True ∧ l = l' ∧ r = r' := by simpa using h
    exact ⟨congrArg Prod.fst ((hletters _ hl).2 _ hl' hletter), hrest⟩
  · exact absurd (List.cons.inj (List.cons.inj h).2).1 (hletters _ hl).1
  · exact absurd (List.cons.inj h).1.symm hslash'
  · exact absurd (List.cons.inj (List.cons.inj h).2).1.symm (hletters _ hl').1
  · have hbrace : ∀ d < 16, Nat.digitChar d ≠ '\x7d' := by decide
    have hdigit (c d : Char) (hd : d ∈ Nat.toDigits 16 c.toNat) : d ≠ '\x7d' := by
      obtain ⟨n, hn, rfl⟩ := digit_of_mem_toDigits hd
      exact hbrace n hn
    simp only [List.cons_append, List.append_assoc, List.cons.injEq, true_and] at h
    obtain ⟨hcode, hrest⟩ := append_inj_of_stop (hdigit a) (hdigit b) (by simp) (by simp) h
    exact ⟨Char.toNat_inj.mp (toDigits_inj hcode), by simpa using hrest⟩

/-- No written form begins with a quote. -/
theorem escape_ne_quote (c : Char) (r r' : List Char) : escape c ++ r ≠ '"' :: r' := by
  rcases escape_cases c with ⟨h, hquote, -⟩ | ⟨l, h, -⟩ | h <;> rw [h]
  · exact fun heq => hquote (List.cons.inj heq).1
  · exact fun heq => absurd (List.cons.inj heq).1 (by decide)
  · exact fun heq => absurd (List.cons.inj heq).1 (by decide)

/-- The first quote that stands alone ends the text. -/
theorem flatMap_escape_inj {as bs r r' : List Char}
    (h : as.flatMap escape ++ '"' :: r = bs.flatMap escape ++ '"' :: r') : as = bs ∧ r = r' := by
  induction as generalizing bs with
  | nil =>
    cases bs with
    | nil => simpa using h
    | cons b bs =>
      rw [List.flatMap_cons, List.append_assoc] at h
      exact absurd h.symm (escape_ne_quote b _ _)
  | cons a as ih =>
    cases bs with
    | nil =>
      rw [List.flatMap_cons, List.append_assoc] at h
      exact absurd h (escape_ne_quote a _ _)
    | cons b bs =>
      rw [List.flatMap_cons, List.flatMap_cons, List.append_assoc, List.append_assoc] at h
      obtain ⟨rfl, hrest⟩ := escape_append_inj h
      obtain ⟨rfl, hr⟩ := ih hrest
      exact ⟨rfl, hr⟩

end Quoted

/-- A quoted text ends at its closing quote, whatever is inside. -/
theorem isDelimited_quote : IsDelimited (fun _ => True) fun s : String => (Quoted.quote s).toList where
  starts s _ := ⟨'"', _, String.toList_ofList, by decide, by decide⟩
  read {s t r r'} _ _ _ _ h := by
    simp only [Quoted.quote, String.toList_ofList, List.cons_append, List.append_assoc,
      List.cons.injEq, true_and, List.nil_append] at h
    obtain ⟨htext, hrest⟩ := Quoted.flatMap_escape_inj h
    exact ⟨String.toList_inj.mp htext, hrest⟩

end LikelyInvariants
