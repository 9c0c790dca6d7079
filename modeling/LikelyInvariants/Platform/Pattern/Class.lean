import LikelyInvariants.Platform.Pattern.Escape

/-!
# Classes of characters in brackets

A class holds characters, ranges, escapes, named classes and further classes in brackets, and its
items can be put together by the operators for intersection, difference and symmetric difference,
which bind alike and to the left. It is read with one frame for each bracket that is open.
-/

namespace LikelyInvariants

/-- The operators between the items of a class. -/
inductive ClassOperator where
  | inter
  | diff
  | symmetricDiff

def ClassOperator.apply : ClassOperator → CodePoints → CodePoints → CodePoints
  | inter, s, t => s.inter t
  | diff, s, t => s.diff t
  | symmetricDiff, s, t => s.symmetricDiff t

/-- A part of a class: what it holds and how deep brackets, operators and lists of items are nested
in it. -/
structure ClassPart where
  set : CodePoints
  depth : Nat := 0

/-- What has been read of a class whose bracket is open. -/
structure ClassFrame where
  negated : Bool
  /-- The items since the last operator. -/
  items : List ClassPart := []
  /-- The operand on the left of the last operator. -/
  left : Option (ClassPart × ClassOperator) := none

namespace ClassFrame

def add (frame : ClassFrame) (part : ClassPart) : ClassFrame :=
  { frame with items := part :: frame.items }

/-- The items since the last operator, as one part. -/
def list (frame : ClassFrame) : ClassPart where
  set := CodePoints.unions (frame.items.map (·.set))
  depth :=
    let deepest := (frame.items.map (·.depth)).foldl max 0
    if frame.items.length < 2 then deepest else deepest + 1

/-- Everything read so far, as one part. The operands of an operator are taken with their case
variants. -/
def part (f : PatternFlags) (frame : ClassFrame) : ClassPart :=
  match frame.left with
  | none => frame.list
  | some (left, operator) =>
    { set := operator.apply (f.fold left.set) (f.fold frame.list.set)
      depth := max left.depth frame.list.depth + 1 }

/-- The whole class, when its bracket closes. -/
def close? (f : PatternFlags) (frame : ClassFrame) : Option ClassPart := do
  let part := frame.part f
  return { set := ← f.negate? frame.negated (f.fold part.set), depth := part.depth + 1 }

def operator (f : PatternFlags) (frame : ClassFrame) (o : ClassOperator) : ClassFrame :=
  { frame with items := [], left := some (frame.part f, o) }

end ClassFrame

namespace PatternClass

/-- The classes that can be named between `[:` and `:]`. -/
def named? (name : String) : Option CodePoints :=
  let lower := (0x61, 0x7a)
  let upper := (0x41, 0x5a)
  let decimal := (0x30, 0x39)
  match name with
  | "alnum" => some (.ofRanges [decimal, upper, lower])
  | "alpha" => some (.ofRanges [upper, lower])
  | "ascii" => some (.ofRanges [(0, 0x7f)])
  | "blank" => some (.ofRanges [(9, 9), (0x20, 0x20)])
  | "cntrl" => some (.ofRanges [(0, 0x1f), (0x7f, 0x7f)])
  | "digit" => some (.ofRanges [decimal])
  | "graph" => some (.ofRanges [(0x21, 0x7e)])
  | "lower" => some (.ofRanges [lower])
  | "print" => some (.ofRanges [(0x20, 0x7e)])
  | "punct" => some (.ofRanges [(0x21, 0x2f), (0x3a, 0x40), (0x5b, 0x60), (0x7b, 0x7e)])
  | "space" => some PatternEscape.asciiBlank
  | "upper" => some (.ofRanges [upper])
  | "word" => some PatternEscape.asciiWord
  | "xdigit" => some (.ofRanges [decimal, (0x41, 0x46), (0x61, 0x66)])
  | _ => none

/-- A named class after its bracket, if one is written there, and whether it is negated. -/
def readNamed? : List Char → Option (CodePoints × Bool × List Char)
  | ':' :: cs =>
    let (negated, cs) := match cs with
      | '^' :: cs => (true, cs)
      | cs => (false, cs)
    let (name, rest) := cs.span (· ≠ ':')
    match rest with
    | ':' :: ']' :: rest => (named? (String.ofList name)).map (·, negated, rest)
    | _ => none
  | _ => none

/-- The number of hyphens a text begins with, and the rest; `fuel` is at least that number. -/
def readHyphens (f : PatternFlags) : Nat → List Char → Nat × List Char
  | fuel + 1, '-' :: cs =>
    let (n, rest) := readHyphens f fuel (f.skip cs)
    (n + 1, rest)
  | _, cs => (0, cs)

/-- The frame of a class after its bracket: a circumflex negates the class, hyphens that follow
stand for themselves, and so does a closing bracket right at the beginning. -/
def openFrame (f : PatternFlags) (cs : List Char) : ClassFrame × List Char :=
  let cs := f.skip cs
  let (negated, cs) := match cs with
    | '^' :: cs => (true, f.skip cs)
    | cs => (false, cs)
  let (hyphens, cs) := readHyphens f cs.length cs
  let frame : ClassFrame := { negated, items := List.replicate hyphens { set := .single '-' } }
  match hyphens, cs with
  | 0, ']' :: cs => (frame.add { set := .single ']' }, cs)
  | _, cs => (frame, cs)

/-- One character or escape. A character that may be the end of a range is on the left. -/
def readItem? (f : PatternFlags) : List Char → Option ((Char ⊕ CodePoints) × List Char)
  | [] => none
  | '\\' :: cs => do
    match ← PatternEscape.read? f cs with
    | (.char c _, rest) => if f.unicode || c.toNat < 0x80 then return (.inl c, rest) else none
    | (.set s, rest) => return (.inr s, rest)
    | (.assertion _, _) => none
  | c :: cs => if f.unicode || c.toNat < 0x80 then some (.inl c, cs) else none

/-- One item or range. A hyphen before the closing bracket or before another hyphen makes no
range. -/
def readRange? (f : PatternFlags) (cs : List Char) : Option (CodePoints × List Char) := do
  let (first, rest) ← readItem? f cs
  let alone := match first with
    | .inl c => CodePoints.single c
    | .inr s => s
  match f.skip rest with
  | '-' :: more =>
    match f.skip more with
    | ']' :: _ | '-' :: _ => return (alone, f.skip rest)
    | more =>
      let (second, rest) ← readItem? f more
      match first, second with
      | .inl low, .inl high => if low ≤ high then return (.range low high, rest) else none
      | _, _ => none
  | rest => return (alone, rest)

/-- The rest of a class whose brackets are open, innermost first; `fuel` is at least the length of
the text. -/
def readItems? (f : PatternFlags) :
    Nat → ClassFrame → List ClassFrame → List Char → Option (ClassPart × List Char)
  | 0, _, _, _ => none
  | fuel + 1, frame, outer, cs =>
    match f.skip cs with
    | [] => none
    | '[' :: rest =>
      match readNamed? rest with
      | some (s, negated, rest) => do
        let s ← f.negate? negated (f.fold s)
        readItems? f fuel (frame.add { set := s }) outer rest
      | none =>
        let (inner, rest) := openFrame f rest
        readItems? f fuel inner (frame :: outer) rest
    | ']' :: rest => do
      let part ← frame.close? f
      match outer with
      | [] => return (part, rest)
      | next :: outer => readItems? f fuel (next.add part) outer rest
    | '&' :: '&' :: rest => readItems? f fuel (frame.operator f .inter) outer rest
    | '-' :: '-' :: rest => readItems? f fuel (frame.operator f .diff) outer rest
    | '~' :: '~' :: rest => readItems? f fuel (frame.operator f .symmetricDiff) outer rest
    | cs => do
      let (s, rest) ← readRange? f cs
      readItems? f fuel (frame.add { set := s }) outer rest

/-- A class after its bracket. -/
def read? (f : PatternFlags) (cs : List Char) : Option (ClassPart × List Char) :=
  let (frame, rest) := openFrame f cs
  readItems? f (rest.length + 1) frame [] rest

end PatternClass

end LikelyInvariants
