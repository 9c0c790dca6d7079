import LikelyInvariants.Platform.Character.CaseFolding
import LikelyInvariants.Platform.Pattern

/-!
# Escapes in written patterns

What a backslash and the characters after it stand for: a character, a class of characters or an
assertion. In the verbose mode blanks and comments may stand between the parts of a pattern, also
between the digits of a number, and count for nothing.
-/

namespace LikelyInvariants

/-- What a pattern takes into account while it is read. -/
structure PatternFlags where
  ignoreCase : Bool := false
  multiLine : Bool := false
  dotAll : Bool := false
  /-- Lines may also end with a carriage return. -/
  carriageReturns : Bool := false
  /-- Blanks and comments are left out. -/
  verbose : Bool := false
  /-- The pattern may use characters beyond ASCII and classes of them. -/
  unicode : Bool := true

namespace PatternFlags

/-- The set with the case variants of its members, where case is ignored. -/
def fold (f : PatternFlags) (s : CodePoints) : CodePoints :=
  if !f.ignoreCase then s
  else if f.unicode then Character.withVariants Character.variantPairs s
  else Character.withVariants Character.asciiVariantPairs s

/-- The complement of a set, if it is asked for. Without characters beyond ASCII a complement would
hold bytes that are no characters, so there is none. -/
def negate? (f : PatternFlags) (negated : Bool) (s : CodePoints) : Option CodePoints :=
  if !negated then some s else if f.unicode then some s.complement else none

/-- The rest of a text after blanks and comments that count for nothing. A comment goes from a
number sign to the end of the line. -/
def skip (f : PatternFlags) (cs : List Char) : List Char :=
  if f.verbose then go false cs else cs
where
  go : Bool → List Char → List Char
    | _, [] => []
    | true, c :: cs => go (c ≠ '\n') cs
    | false, c :: cs =>
      if Character.isBlank c then go false cs else if c = '#' then go true cs else c :: cs

end PatternFlags

namespace PatternEscape

/-- What an escape stands for. -/
inductive Meaning where
  /-- A character, or a byte of two hexadecimal digits that is one only up to `7f` when there are no
  characters beyond ASCII. -/
  | char (c : Char) (byte : Bool)
  | set (s : CodePoints)
  | assertion (a : Assertion)

def isHex (c : Char) : Bool := c.isDigit || ('a' ≤ c && c ≤ 'f') || ('A' ≤ c && c ≤ 'F')

def hexValue (c : Char) : Nat :=
  if c.isDigit then c.toNat - 48 else if 'a' ≤ c then c.toNat - 87 else c.toNat - 55

/-- The character of a number written with hexadecimal digits, at least one. -/
def ofHex? (digits : List Char) : Option Char :=
  let n := digits.foldl (fun n d => 16 * n + hexValue d) 0
  if !digits.isEmpty && digits.all isHex && n.isValidChar then some (Char.ofNat n) else none

/-- So many characters, with what is skipped after each of them. -/
def readCount (f : PatternFlags) : Nat → List Char → Option (List Char × List Char)
  | 0, cs => some ([], cs)
  | _, [] => none
  | n + 1, c :: cs => (readCount f n (f.skip cs)).map fun (text, rest) => (c :: text, rest)

/-- The characters up to a closing brace, which is read, too; `fuel` is at least their number. -/
def readBraced (f : PatternFlags) : Nat → List Char → Option (List Char × List Char)
  | 0, _ => none
  | _, [] => none
  | fuel + 1, c :: cs =>
    if c = '\x7d' then some ([], cs)
    else (readBraced f fuel (f.skip cs)).map fun (text, rest) => (c :: text, rest)

/-- A character written by its number: so many digits, or any number of them between braces. -/
def readHex? (f : PatternFlags) (digits : Nat) (cs : List Char) : Option (Meaning × List Char) :=
  match f.skip cs with
  | '\x7b' :: cs => do
    let (hex, rest) ← readBraced f cs.length.succ (f.skip cs)
    return (.char (← ofHex? hex) false, rest)
  | cs => do
    let (hex, rest) ← readCount f digits cs
    return (.char (← ofHex? hex) (digits = 2), rest)

/-- The part of a text before the first occurrence of a mark, and the part after it. -/
def splitAt? (mark : List Char) : List Char → Option (List Char × List Char)
  | [] => none
  | c :: cs =>
    if mark.isPrefixOf (c :: cs) then some ([], (c :: cs).drop mark.length)
    else (splitAt? mark cs).map fun (before, after) => (c :: before, after)

/-- The set that is named between braces. A property and its value are separated by one of
three signs, which all mean that the property has the value. -/
def namedSet? (text : List Char) : Option CodePoints :=
  let marks := [['!', '='], [':'], ['=']]
  match marks.findSome? fun mark => splitAt? mark text with
  | some (property, value) =>
    Character.propertyValue? (String.ofList property) (String.ofList value)
  | none => Character.property? (String.ofList text)

/-- The set of a property's name after its letter: a name of one letter, or one between braces. -/
def readPropertySet? (f : PatternFlags) (cs : List Char) : Option (CodePoints × List Char) :=
  match f.skip cs with
  | [] => none
  | '\x7b' :: cs => do
    let (text, rest) ← readBraced f cs.length.succ (f.skip cs)
    return (← namedSet? text, rest)
  | c :: cs =>
    if c = '\\' then none else (Character.property? (String.singleton c)).map (·, cs)

/-- A class by the name of a property, after its letter. -/
def readProperty? (f : PatternFlags) (negated : Bool) (cs : List Char) :
    Option (Meaning × List Char) := do
  let (s, rest) ← readPropertySet? f cs
  if f.unicode then return (.set (← f.negate? negated (f.fold s)), rest) else none

/-- One of the three classes with a letter of their own. -/
def readClass? (f : PatternFlags) (s ascii : CodePoints) (negated : Bool) (cs : List Char) :
    Option (Meaning × List Char) :=
  (f.negate? negated (if f.unicode then s else ascii)).map fun s => (.set s, cs)

def word (f : PatternFlags) (condition : WordCondition) : Meaning :=
  .assertion (.word condition !f.unicode)

/-- A condition on words, after its letter: a plain one, or one that is named between braces. Braces
that hold no name belong to a repetition. -/
def readWordCondition? (f : PatternFlags) (cs : List Char) : Option (Meaning × List Char) :=
  let isNameChar (c : Char) := c.isAlpha || c == '-'
  match cs with
  | '\x7b' :: inner =>
    match f.skip inner with
    | [] => none
    | c :: _ =>
      if !isNameChar c then some (word f .boundary, cs)
      else do
        let (name, rest) ← readBraced f inner.length.succ (f.skip inner)
        match String.ofList name with
        | "start" => return (word f .start, rest)
        | "end" => return (word f .stop, rest)
        | "start-half" => return (word f .startHalf, rest)
        | "end-half" => return (word f .stopHalf, rest)
        | _ => none
  | _ => some (word f .boundary, cs)

/-- Characters that stand for themselves after a backslash. -/
def isEscapable (c : Char) : Bool :=
  c.toNat < 0x80 && !c.isAlphanum && c != '<' && c != '>'

def asciiWord : CodePoints := CodePoints.ofRanges [(0x30, 0x39), (0x41, 0x5a), (0x5f, 0x5f), (0x61, 0x7a)]

def asciiBlank : CodePoints := CodePoints.ofRanges [(0x09, 0x0d), (0x20, 0x20)]

/-- What follows a backslash. -/
def read? (f : PatternFlags) : List Char → Option (Meaning × List Char)
  | [] => none
  | 'd' :: cs => readClass? f Character.digits (.range '0' '9') false (f.skip cs)
  | 'D' :: cs => readClass? f Character.digits (.range '0' '9') true (f.skip cs)
  | 's' :: cs => readClass? f Character.blanks asciiBlank false (f.skip cs)
  | 'S' :: cs => readClass? f Character.blanks asciiBlank true (f.skip cs)
  | 'w' :: cs => readClass? f Character.wordCharacters asciiWord false (f.skip cs)
  | 'W' :: cs => readClass? f Character.wordCharacters asciiWord true (f.skip cs)
  | 'p' :: cs => readProperty? f false cs
  | 'P' :: cs => readProperty? f true cs
  | 'x' :: cs => readHex? f 2 cs
  | 'u' :: cs => readHex? f 4 cs
  | 'U' :: cs => readHex? f 8 cs
  | 'n' :: cs => some (.char '\n' false, cs)
  | 't' :: cs => some (.char '\t' false, cs)
  | 'r' :: cs => some (.char '\r' false, cs)
  | 'a' :: cs => some (.char '\x07' false, cs)
  | 'f' :: cs => some (.char '\x0c' false, cs)
  | 'v' :: cs => some (.char '\x0b' false, cs)
  | 'A' :: cs => some (.assertion .textStart, cs)
  | 'z' :: cs => some (.assertion .textEnd, cs)
  | 'b' :: cs => readWordCondition? f cs
  | 'B' :: cs => some (word f .noBoundary, cs)
  | '<' :: cs => some (word f .start, cs)
  | '>' :: cs => some (word f .stop, cs)
  | c :: cs => if isEscapable c then some (.char c false, cs) else none

end PatternEscape

end LikelyInvariants
