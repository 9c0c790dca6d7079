import LikelyInvariants.Platform.Pattern.Class
import LikelyInvariants.Platform.Pattern.Size

/-!
# Reading patterns

A written pattern is read from left to right with one frame for each group that is open. A frame
holds the alternatives that are complete, the items of the alternative being read, and the flags in
force, which return to what they were when the group closes. A pattern is refused when it is not
well formed, when its parts are nested too deep or when its automaton would be too large.
-/

namespace LikelyInvariants

/-- A part of a written pattern: what it matches, how deep groups, repetitions, lists and brackets
are nested in it, and its size. -/
structure PatternPart where
  pattern : Pattern
  depth : Nat := 0
  size : PatternSize := .state

namespace PatternPart

def ofSet (s : CodePoints) (depth : Nat) : PatternPart :=
  { pattern := .set s, depth, size := .ofSet s }

/-- Parts one after another; a part of its own is no list. -/
def sequence : List PatternPart → PatternPart
  | [] => { pattern := .empty }
  | [part] => part
  | parts =>
    { pattern := parts.foldr (fun part rest => part.pattern.andThen rest) .empty
      depth := (parts.map (·.depth)).foldl max 0 + 1
      size := (parts.map (·.size)).foldl .add ⟨0, 0⟩ }

/-- The set of a part that is a set and nothing else. -/
def set? (part : PatternPart) : Option CodePoints :=
  part.pattern.set?.filter fun s => part.size.forward = (PatternSize.ofSet s).forward

/-- The size of alternatives, which need one set only when all of them are sets. -/
def sizeOfAlternatives (parts : List PatternPart) : PatternSize :=
  match parts.mapM set? with
  | some sets => .ofSet (CodePoints.unions sets)
  | none => .alternatives (parts.map (·.size))

/-- One of two or more parts, or a part of its own. -/
def alternatives : List PatternPart → PatternPart
  | [] => { pattern := .empty }
  | [part] => part
  | part :: parts =>
    { pattern := parts.foldl (fun p next => .alt p next.pattern) part.pattern
      depth := ((part :: parts).map (·.depth)).foldl max 0 + 1
      size := sizeOfAlternatives (part :: parts) }

def times (part : PatternPart) (least : Nat) (most : Option Nat) : PatternPart :=
  { pattern := .times part.pattern least most
    depth := part.depth + 1
    size := .times part.pattern.hasWidth least most part.size }

/-- A group, which may note what it matched. -/
def group (part : PatternPart) (captures : Bool) : PatternPart :=
  { part with
    depth := part.depth + 1, size := if captures then part.size.capture else part.size }

/-- How deep the parts of a pattern may be nested. -/
def maxDepth : Nat := 250

end PatternPart

/-- What has been read of a group that is still open. -/
structure PatternFrame where
  flags : PatternFlags := {}
  captures : Bool := false
  /-- The complete alternatives, newest first. -/
  alternatives : List PatternPart := []
  /-- The items of the last alternative, newest first; nothing where the flags were changed, which
  is no item to repeat. -/
  items : List (Option PatternPart) := []

namespace PatternFrame

def push (frame : PatternFrame) (part : PatternPart) : PatternFrame :=
  { frame with items := some part :: frame.items }

/-- The alternative being read. -/
def sequence (frame : PatternFrame) : PatternPart :=
  .sequence (frame.items.reverse.map (·.getD { pattern := .empty }))

/-- The content of the group. -/
def part (frame : PatternFrame) : PatternPart :=
  .alternatives (frame.sequence :: frame.alternatives).reverse

end PatternFrame

namespace PatternFlags

/-- The flags after one letter of a list of changes. -/
def change? (f : PatternFlags) (on : Bool) : Char → Option PatternFlags
  | 'i' => some { f with ignoreCase := on }
  | 'm' => some { f with multiLine := on }
  | 's' => some { f with dotAll := on }
  | 'R' => some { f with carriageReturns := on }
  | 'x' => some { f with verbose := on }
  | 'u' => some { f with unicode := on }
  -- Lazy matching does not change what matches.
  | 'U' => some f
  | _ => none

/-- The flags after a list of changes, the letters after a hyphen being turned off. No letter and no
hyphen may occur twice, and a letter follows the hyphen. -/
def changeAll? (f : PatternFlags) (text : List Char) : Option PatternFlags :=
  if text.eraseDups.length ≠ text.length || text.getLast? = some '-' then none
  else
    let (on, off) := text.span (· ≠ '-')
    do off.tail.foldlM (·.change? false) (← on.foldlM (·.change? true) f)

end PatternFlags

/-- The open groups, innermost first, and the names groups have so far. -/
structure PatternReader where
  inner : PatternFrame := {}
  outer : List PatternFrame := []
  names : List String := []

namespace PatternReader

def push (r : PatternReader) (part : PatternPart) : PatternReader :=
  { r with inner := r.inner.push part }

/-- A character that stands for itself. -/
def literal? (f : PatternFlags) (c : Char) (byte : Bool) : Option PatternPart :=
  if byte && !f.unicode && 0x80 ≤ c.toNat then none
  else some (.ofSet (f.fold (.single c)) 0)

def assertion (a : Assertion) : PatternPart := { pattern := .assertion a }

/-- The sign for any character, without line ends unless the flags include them. Without characters
beyond ASCII it would match bytes that are no characters. -/
def anyChar? (f : PatternFlags) : Option PatternPart :=
  if !f.unicode then none
  else if f.dotAll then some (.ofSet .all 0)
  else
    let ends := if f.carriageReturns then [10, 13] else [10]
    some (.ofSet (CodePoints.ofList ends).complement 0)

/-- The name of a group up to its closing bracket: letters, digits and some signs, beginning with a
letter or a low line. -/
def readName? (cs : List Char) : Option (String × List Char) :=
  let isLetter (c : Char) := c == '_' || Character.Trait.alphabetic.contains c
  let isNameChar (c : Char) :=
    isLetter c || c == '.' || c == '[' || c == ']' ||
      (Character.categoryGroup ["nd", "nl", "no"]).contains c
  match cs.span (· ≠ '>') with
  | (c :: name, _ :: rest) =>
    if isLetter c && name.all isNameChar then some (String.ofList (c :: name), rest) else none
  | _ => none

/-- The reader inside a new group. -/
def openGroup (r : PatternReader) (captures : Bool) (flags : PatternFlags) : PatternReader :=
  { r with inner := { captures, flags }, outer := r.inner :: r.outer }

/-- What follows an opening parenthesis: a name, flags, or the content at once. Looking ahead or
behind is no part of the language. -/
def readGroup? (r : PatternReader) (cs : List Char) : Option (PatternReader × List Char) :=
  let flags := r.inner.flags
  let named? (cs : List Char) := do
    let (name, rest) ← readName? cs
    if r.names.contains name then none
    else return ({ r.openGroup true flags with names := name :: r.names }, rest)
  match flags.skip cs with
  | '?' :: '=' :: _ | '?' :: '!' :: _ | '?' :: '<' :: '=' :: _ | '?' :: '<' :: '!' :: _ => none
  | '?' :: 'P' :: '<' :: cs | '?' :: '<' :: cs => named? cs
  | '?' :: cs => do
    let (text, rest) := cs.span fun c => c ≠ ':' && c ≠ ')'
    let changed ← flags.changeAll? text
    match rest with
    | ':' :: rest => return (r.openGroup false changed, rest)
    | ')' :: rest =>
      if text.isEmpty then none
      else
        return ({ r with inner := { r.inner with flags := changed, items := none :: r.inner.items } },
          rest)
    | _ => none
  | cs => some (r.openGroup true flags, cs)

/-- The innermost group closed. -/
def closeGroup? (r : PatternReader) : Option PatternReader :=
  match r.outer with
  | [] => none
  | next :: outer =>
    some { r with inner := next.push (r.inner.part.group r.inner.captures), outer }

/-- The last item repeated. -/
def repeat? (r : PatternReader) (least : Nat) (most : Option Nat) : Option PatternReader :=
  match r.inner.items with
  | some part :: items =>
    some { r with inner := { r.inner with items := some (part.times least most) :: items } }
  | _ => none

/-- A number of 32 bits with blanks around it. -/
def readNumber? (f : PatternFlags) (cs : List Char) : Option (Nat × List Char) := do
  let (digits, rest) := readDigits f cs.length (cs.dropWhile Character.isBlank)
  let n := digits.foldl (fun n d => 10 * n + (d.toNat - 48)) 0
  if digits.isEmpty || UInt32.size ≤ n then none
  else return (n, f.skip (rest.dropWhile Character.isBlank))
where
  readDigits (f : PatternFlags) : Nat → List Char → List Char × List Char
    | fuel + 1, c :: cs =>
      if c.isDigit then
        let (digits, rest) := readDigits f fuel (f.skip cs)
        (c :: digits, rest)
      else ([], c :: cs)
    | _, cs => ([], cs)

/-- The numbers of a repetition in braces, after the opening brace. -/
def readCounts? (f : PatternFlags) (cs : List Char) :
    Option ((Nat × Option Nat) × List Char) := do
  let (least, rest) ← readNumber? f (f.skip cs)
  match rest with
  | '\x7d' :: rest => return ((least, some least), rest)
  | ',' :: rest =>
    match f.skip rest with
    | '\x7d' :: rest => return ((least, none), rest)
    | rest => do
      match ← readNumber? f rest with
      | (most, '\x7d' :: rest) => if least ≤ most then return ((least, some most), rest) else none
      | _ => none
  | _ => none

/-- The rest after a question mark that makes a repetition lazy, which does not change what
matches. -/
def skipLazy : List Char → List Char
  | '?' :: cs => cs
  | cs => cs

/-- The reader after the next item of a text. -/
def step? (r : PatternReader) : List Char → Option (PatternReader × List Char)
  | [] => some (r, [])
  | '(' :: cs => r.readGroup? cs
  | ')' :: cs => r.closeGroup?.map (·, cs)
  | '|' :: cs =>
    some ({ r with inner :=
      { r.inner with alternatives := r.inner.sequence :: r.inner.alternatives, items := [] } }, cs)
  | '[' :: cs => do
    let (part, rest) ← PatternClass.read? r.inner.flags cs
    return (r.push (.ofSet part.set part.depth), rest)
  | '?' :: cs => (r.repeat? 0 (some 1)).map (·, skipLazy cs)
  | '*' :: cs => (r.repeat? 0 none).map (·, skipLazy cs)
  | '+' :: cs => (r.repeat? 1 none).map (·, skipLazy cs)
  | '\x7b' :: cs => do
    let ((least, most), rest) ← readCounts? r.inner.flags cs
    return (← r.repeat? least most, skipLazy (r.inner.flags.skip rest))
  | '\\' :: cs => do
    match ← PatternEscape.read? r.inner.flags cs with
    | (.char c byte, rest) => return (r.push (← literal? r.inner.flags c byte), rest)
    | (.set s, rest) => return (r.push (.ofSet s 0), rest)
    | (.assertion a, rest) => return (r.push (assertion a), rest)
  | '.' :: cs => (anyChar? r.inner.flags).map fun part => (r.push part, cs)
  | '^' :: cs =>
    let f := r.inner.flags
    some (r.push (assertion (if f.multiLine then .lineStart f.carriageReturns else .textStart)), cs)
  | '$' :: cs =>
    let f := r.inner.flags
    some (r.push (assertion (if f.multiLine then .lineEnd f.carriageReturns else .textEnd)), cs)
  | c :: cs => (literal? r.inner.flags c false).map fun part => (r.push part, cs)

/-- The reader at the end of a text; `fuel` is at least its length. -/
def readAll? : Nat → PatternReader → List Char → Option PatternReader
  | 0, r, cs => if cs.isEmpty then some r else none
  | fuel + 1, r, cs =>
    match r.inner.flags.skip cs with
    | [] => some r
    | cs => do
      let (r, rest) ← r.step? cs
      readAll? fuel r rest

end PatternReader

/-- The pattern a text describes, if it describes one. -/
def Pattern.ofString? (text : String) : Option Pattern := do
  let r ← PatternReader.readAll? text.toList.length {} text.toList
  let part := r.inner.part
  if r.outer.isEmpty && part.depth ≤ PatternPart.maxDepth && part.size.isAllowed then
    some part.pattern
  else none

end LikelyInvariants
