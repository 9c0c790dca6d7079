import LikelyInvariants.Platform.Shell.Glob

/-!
# Regular expressions of tools

The regular expressions that tools for texts understand, in the basic and in the extended spelling.
An expression matches at the first place it can, and there as much as it can.
-/

namespace LikelyInvariants.Shell

inductive Regex where
  | empty
  | char (c : Char)
  | any
  | oneOf (negated : Bool) (items : List SetItem)
  | textStart
  | textEnd
  | wordStart
  | wordEnd
  /-- A place that is a beginning or an end of a word, or one that is neither. -/
  | wordEdge (isEdge : Bool)
  | group (number : Nat) (r : Regex)
  /-- What a group matched. -/
  | again (number : Nat)
  | seq (a b : Regex)
  | alt (a b : Regex)
  | many (r : Regex) (least : Nat) (most : Option Nat)

namespace Regex

/-- How an expression is spelled. -/
inductive Spelling where
  | basic
  | extended
deriving DecidableEq

inductive Token where
  | atom (r : Regex)
  | openGroup
  | closeGroup
  | bar
  | many (least : Nat) (most : Option Nat)

/-- The items of a set after its opening bracket, whether it is negated, and what follows it. -/
def set? (cs : List Char) : Option (Regex × List Char) :=
  let (negated, inside) :=
    match cs with
    | '^' :: inside => (true, inside)
    | inside => (false, inside)
  -- a backslash stands for itself here
  let plain := inside.map fun c => (c, c == '\\')
  (readSet (plain.length + 1) true plain).map fun (items, rest) =>
    (oneOf negated items, inside.drop (inside.length - rest.length))

def wordItems : List SetItem := [.named "alnum", .range '_' '_']

def spaceItems : List SetItem := [.named "space"]

/-- What a backslash and a character stand for in either spelling. -/
def escaped (c : Char) : Regex :=
  match c with
  | 'w' => oneOf false wordItems
  | 'W' => oneOf true wordItems
  | 's' => oneOf false spaceItems
  | 'S' => oneOf true spaceItems
  | 'b' => wordEdge true
  | 'B' => wordEdge false
  | '<' => wordStart
  | '>' => wordEnd
  | '\x60' => textStart
  | '\'' => textEnd
  | c => if '1' ≤ c ∧ c ≤ '9' then again (c.toNat - '0'.toNat) else char c

/-- The bounds of a repetition, written between braces, and what follows them. -/
def bounds? (closing cs : List Char) : Option (Nat × Option Nat × List Char) :=
  let digits (cs : List Char) := cs.takeWhile Char.isDigit
  let value (ds : List Char) := (String.ofList ds).toNat?
  let least := digits cs
  let rest := cs.drop least.length
  let close (rest : List Char) : Option (List Char) :=
    if closing.isPrefixOf rest then some (rest.drop closing.length) else none
  match rest with
  | ',' :: rest =>
    let most := digits rest
    (close (rest.drop most.length)).map fun rest => ((value least).getD 0, value most, rest)
  | rest =>
    match value least with
    | some n => (close rest).map fun rest => (n, some n, rest)
    | none => none

/-- The tokens of an expression; `first` tells whether nothing that could be repeated comes before. -/
def tokens? (spelling : Spelling) : Nat → Bool → List Char → Option (List Token)
  | 0, _, _ => none
  | _ + 1, _, [] => some []
  | n + 1, first, c :: cs =>
    let go (t : Token) (first : Bool) (rest : List Char) : Option (List Token) :=
      (tokens? spelling n first rest).map (t :: ·)
    let counted (closing rest : List Char) : Option (List Token) := do
      let (least, most, rest) ← bounds? closing rest
      go (.many least most) false rest
    match spelling, c, cs with
    | _, '[', cs => do
      let (r, rest) ← set? cs
      go (.atom r) false rest
    | _, '.', cs => go (.atom any) false cs
    | _, '*', cs => if first then go (.atom (char '*')) false cs else go (.many 0 none) false cs
    | .basic, '\\', '(' :: cs => go .openGroup true cs
    | .basic, '\\', ')' :: cs => go .closeGroup false cs
    | .basic, '\\', '|' :: cs => go .bar true cs
    | .basic, '\\', '+' :: cs => if first then go (.atom (char '+')) false cs else go (.many 1 none) false cs
    | .basic, '\\', '?' :: cs =>
      if first then go (.atom (char '?')) false cs else go (.many 0 (some 1)) false cs
    | .basic, '\\', '\x7b' :: cs =>
      if first then go (.atom (char '\x7b')) false cs else counted ['\\', '\x7d'] cs
    | .extended, '(', cs => go .openGroup true cs
    | .extended, ')', cs => go .closeGroup false cs
    | .extended, '|', cs => go .bar true cs
    | .extended, '+', cs => if first then go (.atom (char '+')) false cs else go (.many 1 none) false cs
    | .extended, '?', cs =>
      if first then go (.atom (char '?')) false cs else go (.many 0 (some 1)) false cs
    | .extended, '\x7b', cs =>
      match bounds? ['\x7d'] cs with
      | some (least, most, rest) =>
        if first then go (.atom (char '\x7b')) false cs else go (.many least most) false rest
      | none => go (.atom (char '\x7b')) false cs
    | .extended, '^', cs => go (.atom textStart) true cs
    | .extended, '$', cs => go (.atom textEnd) false cs
    | .basic, '^', cs =>
      if first then go (.atom textStart) true cs else go (.atom (char '^')) false cs
    | .basic, '$', cs =>
      let atEnd := cs.isEmpty || ['\\', ')'].isPrefixOf cs || ['\\', '|'].isPrefixOf cs
      go (.atom (if atEnd then textEnd else char '$')) false cs
    | _, '\\', d :: cs => go (.atom (escaped d)) false cs
    | _, '\\', [] => none
    | _, c, cs => go (.atom (char c)) false cs

mutual

/-- Reads alternatives; groups get numbers from the given one on. -/
def readAlternatives : Nat → Nat → List Token → Option (Regex × Nat × List Token)
  | 0, _, _ => none
  | n + 1, k, ts => do
    let (first, k, rest) ← readSequence n k .empty ts
    match rest with
    | .bar :: rest => do
      let (second, k, rest) ← readAlternatives n k rest
      return (.alt first second, k, rest)
    | rest => return (first, k, rest)

/-- Reads what follows a part of an alternative. -/
def readSequence : Nat → Nat → Regex → List Token → Option (Regex × Nat × List Token)
  | 0, _, _, _ => none
  | n + 1, k, before, ts =>
    match ts with
    | .atom r :: rest => do
      let (r, rest) ← some (readCounts r rest)
      readSequence n k (.seq before r) rest
    | .openGroup :: rest => do
      let (r, next, rest) ← readAlternatives n (k + 1) rest
      match rest with
      | .closeGroup :: rest =>
        let (r, rest) := readCounts (.group k r) rest
        readSequence n next (.seq before r) rest
      | _ => none
    | .many _ _ :: rest => readSequence n k before rest
    | ts => some (before, k, ts)

/-- A part with the repetitions that follow it. -/
def readCounts (r : Regex) : List Token → Regex × List Token
  | .many least most :: rest => readCounts (.many r least most) rest
  | ts => (r, ts)

end

/-- The expression that a text spells. -/
def ofString? (spelling : Spelling) (s : String) : Option Regex := do
  let cs := s.toList
  let ts ← tokens? spelling (cs.length + 1) true cs
  match ← readAlternatives (4 * ts.length + 8) 1 ts with
  | (r, _, []) => return r
  | _ => none

/-- A place in a text, and what groups have matched on the way to it. -/
structure Place where
  before : Option Char
  rest : List Char
  index : Nat
  groups : List (Nat × List Char) := []
  /-- The groups that have begun, each with where it has. -/
  opened : List (Nat × Nat × List Char) := []

def isWordChar (c : Option Char) : Bool := c.any fun c => c.isAlphanum || c == '_'

namespace Place

/-- The place after the next character. -/
def next? (p : Place) : Option (Char × Place) :=
  match p.rest with
  | [] => none
  | c :: cs => some (c, { p with before := some c, rest := cs, index := p.index + 1 })

/-- The place after the next character, if that is of a kind. -/
def after? (isOf : Char → Bool) (p : Place) : Option Place :=
  p.next?.bind fun (c, q) => if isOf c then some q else none

/-- The place after a text, if that comes next. -/
def afterText? (text : List Char) (p : Place) : Option Place :=
  if text.isPrefixOf p.rest then
    some { p with
      before := text.getLast?.orElse fun _ => p.before
      rest := p.rest.drop text.length, index := p.index + text.length }
  else none

def openGroup (k : Nat) (p : Place) : Place :=
  { p with opened := (k, p.index, p.rest) :: p.opened }

def closeGroup (k : Nat) (p : Place) : Place :=
  match p.opened.lookup k with
  | some (index, rest) =>
    { p with groups := (k, rest.take (p.index - index)) :: p.groups.filter (·.1 ≠ k) }
  | none => p

def startsWord (p : Place) : Bool := !isWordChar p.before && isWordChar p.rest.head?

def endsWord (p : Place) : Bool := isWordChar p.before && !isWordChar p.rest.head?

/-- The places that were not seen before, and all that are seen now. Of places with the same index the
first counts. -/
def unseen (seen : Array Bool) (ps : List Place) : List Place × Array Bool :=
  let (kept, seen) := ps.foldl (fun (kept, seen) p =>
    if (seen[p.index]?).getD false then (kept, seen)
    else
      let missing := p.index + 1 - seen.size
      (p :: kept, (seen ++ Array.replicate missing false).set! p.index true)) ([], seen)
  (kept.reverse, seen)

def distinct (ps : List Place) : List Place := (unseen #[] ps).1

end Place

/-- The places after any number of steps from some places, at most so many, before those that are
found already. Places after more steps come first. -/
def closure (step : List Place → List Place) :
    Nat → Option Nat → Array Bool → List Place → List Place → List Place
  | 0, _, _, _, found => found
  | n + 1, most, seen, ps, found =>
    if most = some 0 then found
    else
      let (new, seen) := Place.unseen seen (step ps)
      if new.isEmpty then found
      else closure step n (most.map (· - 1)) seen new (new ++ found)

/-- The places after so many steps. -/
def iterate (step : List Place → List Place) : Nat → List Place → List Place
  | 0, ps => ps
  | n + 1, ps => iterate step n (step ps)

/-- The places that a match from one of some places can end at. With `fold` the case of letters does
not matter. -/
def ends (fold : Bool) : Regex → List Place → List Place
  | empty, ps => ps
  | char c, ps => ps.filterMap (·.after? fun d => d = c || (fold && d.toLower = c.toLower))
  | any, ps => ps.filterMap (·.after? fun _ => true)
  | oneOf negated items, ps =>
    let has (d : Char) : Bool := items.any (·.has d)
    ps.filterMap (·.after? fun d =>
      (has d || (fold && (has d.toLower || has d.toUpper))) != negated)
  | textStart, ps => ps.filter (·.before.isNone)
  | textEnd, ps => ps.filter (·.rest.isEmpty)
  | wordStart, ps => ps.filter (·.startsWord)
  | wordEnd, ps => ps.filter (·.endsWord)
  | wordEdge isEdge, ps => ps.filter fun p => (p.startsWord || p.endsWord) = isEdge
  | group k r, ps => (ends fold r (ps.map (·.openGroup k))).map (·.closeGroup k)
  | again k, ps => Place.distinct (ps.filterMap fun p => (p.groups.lookup k).bind p.afterText?)
  | seq a b, ps => ends fold b (ends fold a ps)
  | alt a b, ps => Place.distinct (ends fold a ps ++ ends fold b ps)
  | many r least most, ps =>
    let (ps, seen) := Place.unseen #[] (iterate (ends fold r) least ps)
    let longest := (ps.map (·.rest.length)).foldl max 0
    closure (ends fold r) (longest + 1) (most.map (· - least)) seen ps ps

/-- The longest of some places, the first of those that are equally long. -/
def longest? (ps : List Place) : Option Place :=
  ps.foldl (fun best p =>
    match best with
    | some b => if b.index < p.index then some p else best
    | none => some p) none

/-- Where the first match from a place on begins and ends. -/
def search? (fold : Bool) (r : Regex) : Nat → Place → Option (Place × Place)
  | 0, _ => none
  | n + 1, p =>
    match longest? (r.ends fold [p]) with
    | some q => some (p, q)
    | none => p.next?.bind fun (_, q) => search? fold r n q

/-- The beginning of a text. -/
def startOf (s : String) : Place := { before := none, rest := s.toList, index := 0 }

/-- Where the first match in a text begins and ends. -/
def find? (fold : Bool) (r : Regex) (s : String) : Option (Place × Place) :=
  search? fold r (s.length + 1) (startOf s)

end Regex

end LikelyInvariants.Shell
