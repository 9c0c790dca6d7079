import LikelyInvariants.Platform.Character.Class

/-!
# Patterns

Regular expressions with assertions about the place in the text. A pattern matches a name when it
matches some part of it. Matching reads the name from left to right with the set of patterns the
rest of a match may have: reading a character takes each pattern to the patterns that remain after
it (`Pattern.step`), and a match has ended where one of them accepts the empty text
(`Pattern.accepts`). What an assertion asks is the two characters around a place, so both functions
take the place as an argument.
-/

namespace LikelyInvariants

/-- A place between the characters of a text. -/
structure Place where
  before : Option Char
  after : Option Char

/-- What can be asked of a place about the words around it. -/
inductive WordCondition where
  /-- A word starts or ends at the place. -/
  | boundary
  | noBoundary
  | start
  | stop
  /-- No word reaches up to the place. -/
  | startHalf
  /-- No word goes on from the place. -/
  | stopHalf
deriving DecidableEq

/-- A condition on a place. -/
inductive Assertion where
  | textStart
  | textEnd
  /-- The start of a line; lines end with a line feed or, in the other mode, with a carriage return
  or a line feed or both in this order. -/
  | lineStart (carriageReturns : Bool)
  | lineEnd (carriageReturns : Bool)
  /-- A condition on words, which are made of all word characters or of those of ASCII. -/
  | word (condition : WordCondition) (asciiOnly : Bool)
deriving DecidableEq

/-- Whether the condition holds, given whether there is a word character on each side. -/
def WordCondition.holds (before after : Bool) : WordCondition → Bool
  | boundary => before != after
  | noBoundary => before == after
  | start => !before && after
  | stop => before && !after
  | startHalf => !before
  | stopHalf => !after

def Assertion.holdsAt (p : Place) : Assertion → Bool
  | textStart => p.before.isNone
  | textEnd => p.after.isNone
  | lineStart false => p.before.all (· == '\n')
  | lineEnd false => p.after.all (· == '\n')
  | lineStart true => p.before.all fun c => c == '\n' || c == '\r' && p.after != some '\n'
  | lineEnd true => p.after.all fun c => c == '\r' || c == '\n' && p.before != some '\r'
  | word condition asciiOnly =>
    let isWord (c : Char) := if asciiOnly then c.isAlphanum || c == '_' else Character.isWord c
    condition.holds (p.before.any isWord) (p.after.any isWord)

/-- A regular expression. -/
inductive Pattern where
  | empty
  | set (s : CodePoints)
  | assertion (a : Assertion)
  | seq (p q : Pattern)
  | alt (p q : Pattern)
  /-- At least `least` and at most `most` times. -/
  | times (p : Pattern) (least : Nat) (most : Option Nat)
deriving DecidableEq

namespace Pattern

/-- The set of a pattern that matches one character of a set. -/
def set? : Pattern → Option CodePoints
  | set s => some s
  | _ => none

/-- Whether the pattern matches the empty text at a place. -/
def accepts (place : Place) : Pattern → Bool
  | empty => true
  | set _ => false
  | assertion a => a.holdsAt place
  | seq p q => p.accepts place && q.accepts place
  | alt p q => p.accepts place || q.accepts place
  | times p least _ => least = 0 || p.accepts place

/-- One pattern and then another, without an empty first one. -/
def andThen (p q : Pattern) : Pattern := if p = empty then q else seq p q

/-- The patterns for what remains of a match after its first character, read at a place. Where the
repeated pattern accepts the empty text, the repetitions still owed can be made up for there. -/
def step (place : Place) (c : Char) : Pattern → List Pattern
  | empty => []
  | set s => if s.contains c then [empty] else []
  | assertion _ => []
  | seq p q =>
    (p.step place c).map (·.andThen q) ++ if p.accepts place then q.step place c else []
  | alt p q => p.step place c ++ q.step place c
  | times p least most =>
    if most = some 0 then []
    else
      let owed := if p.accepts place then 0 else least - 1
      (p.step place c).map (·.andThen (times p owed (most.map (· - 1))))

/-- Whether a match ends in the rest of a text, `active` being what the matches begun so far still
have to match. -/
def search (p : Pattern) (before : Option Char) (active : List Pattern) : List Char → Bool
  | [] => (p :: active).any (·.accepts ⟨before, none⟩)
  | c :: cs =>
    let place : Place := ⟨before, some c⟩
    let active := p :: active
    active.any (·.accepts place) ||
      p.search (some c) (active.flatMap (·.step place c)).eraseDups cs

/-- Whether the pattern matches some part of the text. -/
def occursIn (p : Pattern) (s : String) : Bool := p.search none [] s.toList

end Pattern

end LikelyInvariants
