/-!
# Shell scripts

What a script says: words are made of pieces, which are expanded when a command is carried out, and
commands are made of words, of redirections and of other commands. A text is a sequence of bytes,
each held as the character with its number.
-/

namespace LikelyInvariants.Shell

mutual

/-- A part of a word. What is quoted has no special meaning and is not split into fields. -/
inductive Piece where
  | text (s : String) (quoted : Bool)
  /-- The value of a parameter, or what a rule makes of it. -/
  | value (name : String) (rule : ValueRule) (quoted : Bool)
  /-- The value of an arithmetic expression. -/
  | number (expression : List Piece) (quoted : Bool)
  /-- What a script prints, without the ends of lines at its end. -/
  | output (script : Command) (quoted : Bool)

/-- What is taken instead of the value of a parameter. A parameter is absent if it has no value;
with `orEmpty`, also if its value is empty. -/
inductive ValueRule where
  /-- The value itself. -/
  | itself
  /-- The length of the value. -/
  | length
  /-- A word if the parameter is absent. -/
  | whenAbsent (orEmpty : Bool) (word : List Piece)
  /-- A word if the parameter is absent, which is then given to it. -/
  | givenWhenAbsent (orEmpty : Bool) (word : List Piece)
  /-- Nothing: the parameter must not be absent. -/
  | required (orEmpty : Bool)
  /-- A word unless the parameter is absent. -/
  | whenPresent (orEmpty : Bool) (word : List Piece)
  /-- The value without what a pattern matches at its beginning. -/
  | withoutStart (longest : Bool) (pattern : List Piece)
  /-- The value without what a pattern matches at its end. -/
  | withoutEnd (longest : Bool) (pattern : List Piece)
  /-- Nothing: there is no such rule. -/
  | unknown

/-- Where a descriptor leads. -/
inductive Redirection where
  /-- From a file. -/
  | reading (descriptor : Nat) (file : List Piece)
  /-- To a file, after what it holds or instead of it. -/
  | writing (descriptor : Nat) (file : List Piece) (append : Bool)
  /-- Where another descriptor leads, or nowhere. -/
  | copying (descriptor : Nat) (source : List Piece)
  /-- From a text in the script. -/
  | document (descriptor : Nat) (text : List Piece)

/-- A command. -/
inductive Command where
  | skip
  /-- Assignments, then the words of a command. -/
  | simple (assignments : List (String × List Piece)) (words : List (List Piece))
    (redirections : List Redirection)
  | redirected (c : Command) (redirections : List Redirection)
  | seq (first second : Command)
  /-- The second command only if the first succeeds. -/
  | both (first second : Command)
  /-- The second command only if the first fails. -/
  | either (first second : Command)
  | negated (c : Command)
  /-- Commands side by side, each reading what the one before it prints. -/
  | pipeline (stages : List Command)
  /-- A command that goes on beside those after it. -/
  | background (c : Command)
  /-- A command that leaves no traces in the shell. -/
  | subshell (c : Command)
  | cond (test yes no : Command)
  /-- Repeats the body while the test succeeds, or fails if `untilTrue` is set. -/
  | loop (untilTrue : Bool) (test body : Command)
  /-- Repeats the body for each field of some words, or for each argument. -/
  | forEach (name : String) (words : Option (List (List Piece))) (body : Command)
  /-- The branch of the first pattern that matches the subject. -/
  | select (subject : List Piece) (branches : List (List (List Piece) × Command))
  /-- Gives a name to a command. -/
  | define (name : String) (body : Command)

end

abbrev Word : Type := List Piece

/-- The bytes of a text. -/
def bytesOf (s : String) : String :=
  String.ofList (s.toUTF8.toList.map fun b => Char.ofNat b.toNat)

/-- The text that some bytes stand for, if they stand for one. -/
def ofBytes? (s : String) : Option String :=
  String.fromUTF8? ⟨(s.toList.map fun c => UInt8.ofNat c.toNat).toArray⟩

/-- Whether a character may stand in a name. -/
def isNameChar (c : Char) : Bool := c.isAlphanum || c == '_'

/-- Whether a text is a name. -/
def isName (s : String) : Bool :=
  match s.toList with
  | [] => false
  | c :: cs => isNameChar c && !c.isDigit && cs.all isNameChar

end LikelyInvariants.Shell
