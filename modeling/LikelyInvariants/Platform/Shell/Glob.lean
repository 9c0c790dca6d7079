/-!
# Patterns of texts

A pattern is a list of items: characters that stand for themselves, a mark for any one character
and a mark for any characters at all. It is read from characters of which each is marked as quoted
or not; what is quoted stands for itself.
-/

namespace LikelyInvariants.Shell

/-- A part of a set of characters. -/
inductive SetItem where
  | range (low high : Char)
  /-- A named set of characters. -/
  | named (name : String)

inductive GlobItem where
  | char (c : Char)
  | anyOne
  | anyMany
  /-- One character among some, or among all others if the set is negated. -/
  | oneOf (negated : Bool) (items : List SetItem)

/-- Whether a named set has a character. -/
def namedSetHas (name : String) (c : Char) : Bool :=
  match name with
  | "alpha" => c.isAlpha
  | "digit" => c.isDigit
  | "alnum" => c.isAlphanum
  | "upper" => c.isUpper
  | "lower" => c.isLower
  | "space" => c == ' ' || ('\t' ≤ c && c ≤ '\x0d')
  | "blank" => c == ' ' || c == '\t'
  | "punct" => '!' ≤ c && c ≤ '~' && !c.isAlphanum
  | "print" => ' ' ≤ c && c ≤ '~'
  | "graph" => '!' ≤ c && c ≤ '~'
  | "cntrl" => c < ' ' || c == '\x7f'
  | "xdigit" => c.isDigit || ('a' ≤ c && c ≤ 'f') || ('A' ≤ c && c ≤ 'F')
  | _ => false

def SetItem.has (c : Char) : SetItem → Bool
  | range low high => low ≤ c && c ≤ high
  | named name => namedSetHas name c

/-- Whether one of the items that stand for one character stands for this one. -/
def GlobItem.accepts (c : Char) : GlobItem → Bool
  | char d => c = d
  | anyOne => true
  | anyMany => false
  | oneOf negated items => items.any (·.has c) != negated

/-- Whether a pattern matches a whole text. -/
def globMatches : List GlobItem → List Char → Bool
  | [], [] => true
  | [], _ :: _ => false
  | .anyMany :: items, [] => globMatches items []
  | .anyMany :: items, c :: cs => globMatches items (c :: cs) || globMatches (.anyMany :: items) cs
  | _ :: _, [] => false
  | item :: items, c :: cs => item.accepts c && globMatches items cs
termination_by items cs => items.length + cs.length

/-- The name of a set up to a colon and a bracket, with what follows it. -/
def setName? (cs : List Char) : Option (String × List Char) :=
  let (name, rest) := cs.span Char.isAlpha
  match rest with
  | ':' :: ']' :: rest => some (String.ofList name, rest)
  | _ => none

/-- The items of a set up to the closing bracket, with what follows it. A bracket that comes first
stands for itself. -/
def readSet : Nat → Bool → List (Char × Bool) → Option (List SetItem × List (Char × Bool))
  | 0, _, _ => none
  | _ + 1, _, [] => none
  | n + 1, first, (c, quoted) :: cs =>
    let named := if c = '[' ∧ !quoted ∧ cs.head?.map (·.1) = some ':'
      then setName? (cs.tail.map (·.1)) else none
    if c = ']' ∧ !quoted ∧ !first then some ([], cs)
    else
      match named with
      | some (name, rest) =>
        (readSet n false (cs.drop (cs.length - rest.length))).map
          fun (items, rest) => (.named name :: items, rest)
      | none =>
        let (c, cs) :=
          match c, quoted, cs with
          | '\\', false, (d, _) :: cs => (d, cs)
          | _, _, _ => (c, cs)
        let single := (readSet n false cs).map fun (items, rest) => (.range c c :: items, rest)
        match cs with
        | ('-', false) :: (high, highQuoted) :: after =>
          if high = ']' ∧ !highQuoted then single
          else (readSet n false after).map fun (items, rest) => (.range c high :: items, rest)
        | _ => single

/-- The items of a pattern. An opening bracket without a closing one stands for itself. -/
def globItems : Nat → List (Char × Bool) → List GlobItem
  | 0, _ => []
  | _ + 1, [] => []
  | n + 1, (c, true) :: cs => .char c :: globItems n cs
  | n + 1, ('\\', false) :: (c, _) :: cs => .char c :: globItems n cs
  | n + 1, ('*', false) :: cs => .anyMany :: globItems n cs
  | n + 1, ('?', false) :: cs => .anyOne :: globItems n cs
  | n + 1, ('[', false) :: cs =>
    let (negated, inside) :=
      match cs with
      | ('!', false) :: inside => (true, inside)
      | inside => (false, inside)
    match readSet (inside.length + 1) true inside with
    | some (items, rest) => .oneOf negated items :: globItems n rest
    | none => .char '[' :: globItems n cs
  | n + 1, (c, false) :: cs => .char c :: globItems n cs

/-- The pattern that some characters stand for. -/
def globOf (cs : List (Char × Bool)) : List GlobItem := globItems (cs.length + 1) cs

/-- A text without what a pattern matches at its beginning. -/
def dropGlobStart (longest : Bool) (pattern : List GlobItem) (cs : List Char) : List Char :=
  let lengths := List.range (cs.length + 1)
  match (if longest then lengths.reverse else lengths).find? fun n =>
      globMatches pattern (cs.take n) with
  | some n => cs.drop n
  | none => cs

/-- A text without what a pattern matches at its end. -/
def dropGlobEnd (longest : Bool) (pattern : List GlobItem) (cs : List Char) : List Char :=
  let lengths := List.range (cs.length + 1)
  match (if longest then lengths else lengths.reverse).find? fun n =>
      globMatches pattern (cs.drop n) with
  | some n => cs.take n
  | none => cs

end LikelyInvariants.Shell
