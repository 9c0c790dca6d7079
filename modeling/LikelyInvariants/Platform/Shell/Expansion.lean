import LikelyInvariants.Platform.Shell.Glob
import LikelyInvariants.Platform.Shell.Machine

/-!
# Fields

What words are made into when a command is carried out. The text of a word, with marks on what is
quoted, is cut into fields at the separators that the script has set; so is a line that is read.
-/

namespace LikelyInvariants.Shell

/-- A part of what a word is expanded to. -/
inductive Part where
  /-- A text that belongs to one field. -/
  | text (s : String) (quoted : Bool)
  /-- A text that is cut at separators. -/
  | split (s : String)
  /-- The end of a field. -/
  | fieldEnd
  /-- What stands for no field at all. -/
  | nothing

namespace Part

/-- The text of parts that are not cut. -/
def textOf (ps : List Part) : String :=
  String.join <| ps.map fun
    | text s _ => s
    | split s => s
    | fieldEnd => " "
    | nothing => ""

/-- The characters of a pattern, each with whether it is quoted. -/
def charsOf (ps : List Part) : List (Char × Bool) :=
  ps.flatMap fun
    | text s quoted => s.toList.map (·, quoted)
    | split s => s.toList.map (·, false)
    | fieldEnd => [(' ', false)]
    | nothing => []

end Part

/-- Whether a character is a separator of which any number counts as one. -/
def isBlankSeparator (separators : String) (c : Char) : Bool :=
  (c == ' ' || c == '\t' || c == '\n') && separators.toList.contains c

/-- Fields that are being collected. -/
structure Fields where
  done : List String := []
  /-- The field that has begun. -/
  current : Option String := none
  /-- Whether a blank has just ended a field. -/
  blankEnded : Bool := false

namespace Fields

def add (f : Fields) (s : String) : Fields :=
  { f with current := some (f.current.getD "" ++ s), blankEnded := false }

def close (f : Fields) : Fields :=
  { f with done := f.done ++ f.current.toList, current := none }

/-- Goes on with a character that may be a separator. -/
def addChar (separators : String) (f : Fields) (c : Char) : Fields :=
  if !separators.toList.contains c then f.add c.toString
  else if isBlankSeparator separators c then
    if f.current.isSome then { f.close with blankEnded := true } else f
  else if f.current.isSome then { f.close with blankEnded := false }
  else if f.blankEnded then { f with blankEnded := false }
  else { f with done := f.done ++ [""] }

def addPart (separators : String) (f : Fields) : Part → Fields
  | .text s _ => f.add s
  | .split s =>
    -- a text without separators is taken as a whole
    if s.toList.any separators.toList.contains then s.toList.foldl (addChar separators) f
    else if s.isEmpty then f
    else f.add s
  | .fieldEnd => { f.close with blankEnded := false }
  | .nothing => f

end Fields

/-- The fields that parts are cut into. -/
def fieldsOf (separators : String) (ps : List Part) : List String :=
  let isEmpty : Part → Bool
    | .text s _ => s.isEmpty
    | .nothing => true
    | _ => false
  let hasNothing := ps.any fun
    | .nothing => true
    | _ => false
  if hasNothing && ps.all isEmpty then []
  else (ps.foldl (Fields.addPart separators) {}).close.done

/-- A line that was read, cut into so many fields at most. The last field is all that is left,
without blanks at its end and without a separator after a last field. -/
def lineFields (separators : String) : Nat → List (Char × Bool) → List String
  | 0, _ => []
  | n + 1, cs =>
    let isSeparator (c : Char × Bool) : Bool := !c.2 && separators.toList.contains c.1
    let isBlank (c : Char × Bool) : Bool := !c.2 && isBlankSeparator separators c.1
    let cs := cs.dropWhile isBlank
    let text (cs : List (Char × Bool)) : String := String.ofList (cs.map (·.1))
    let (field, rest) := cs.span (!isSeparator ·)
    let afterBlanks := rest.dropWhile isBlank
    let next :=
      match afterBlanks with
      | c :: after => if isSeparator c then after.dropWhile isBlank else afterBlanks
      | [] => []
    if n = 0 then
      if next.isEmpty then [text field]
      else [text (cs.reverse.dropWhile isBlank).reverse]
    else text field :: lineFields separators n next

end LikelyInvariants.Shell
