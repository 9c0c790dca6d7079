import LikelyInvariants.Platform.Toml.Scalar

/-!
# Reading TOML

A document is a list of headers and of keys with values, one to a line. Values that contain others
are read with the length of the text as fuel: every value uses up a character. Neither values nor
keys may be nested deeper than a fixed limit.
-/

namespace LikelyInvariants.Toml

def dropBlanks (cs : List Char) : List Char := cs.dropWhile fun c => c = ' ' || c = '\t'

/-- The text after a comment, if one begins here. -/
def dropComment? : List Char → Option (List Char)
  | '#' :: cs =>
    let rest := cs.dropWhile fun c => !isControl c
    match rest with
    | [] => some rest
    | '\n' :: _ => some rest
    | '\r' :: '\n' :: _ => some rest
    | _ => none
  | cs => some cs

/-- The text after blanks, comments and line ends. -/
def dropSpace? : Nat → List Char → Option (List Char)
  | 0, cs => some cs
  | fuel + 1, cs =>
    match dropBlanks cs with
    | '#' :: rest => (dropComment? ('#' :: rest)).bind (dropSpace? fuel)
    | '\n' :: rest => dropSpace? fuel rest
    | '\r' :: '\n' :: rest => dropSpace? fuel rest
    | rest => some rest

/-- Blanks, comments and line ends left out, with fuel for the whole text. -/
def dropAllSpace? (cs : List Char) : Option (List Char) := dropSpace? (cs.length + 1) cs

def isBareChar (c : Char) : Bool := c.isAlphanum || c = '_' || c = '-'

/-- One part of a key. -/
def readKeyPart? (cs : List Char) : Option (String × List Char) :=
  match readLineString? cs with
  | some found => some found
  | none =>
    let (key, rest) := cs.span isBareChar
    if key.isEmpty then none else some (String.ofList key, rest)

/-- How deep values may be nested, and how many parts a key may have. -/
def maxDepth : Nat := 80

/-- The parts between dots, with the blanks around them. -/
def readKeyParts? : Nat → List Char → Option (List String × List Char)
  | 0, _ => none
  | fuel + 1, cs => do
    let (part, rest) ← readKeyPart? (dropBlanks cs)
    match dropBlanks rest with
    | '.' :: rest =>
      let (parts, rest) ← readKeyParts? fuel rest
      some (part :: parts, rest)
    | rest => some ([part], rest)

/-- A key, as its parts. -/
def readKey? (cs : List Char) : Option (List String × List Char) :=
  (readKeyParts? (cs.length + 1) cs).filter fun (parts, _) => parts.length ≤ maxDepth

/-- A key split into the tables on its way and its last part. -/
def splitKey? (parts : List String) : Option (List String × String) :=
  parts.getLast?.map fun last => (parts.dropLast, last)

/-- A key and the equals sign after it, in braces, up to the value. -/
def readAssigned? (cs : List Char) : Option (List String × List Char) := do
  let (parts, rest) ← readKey? cs
  match ← dropAllSpace? rest with
  | '=' :: rest => return (parts, ← dropAllSpace? rest)
  | _ => none

mutual

/-- A value, with at most `depth` levels of arrays and tables in it. -/
def readValue? : Nat → Nat → List Char → Option (Toml × List Char)
  | 0, _, _ => none
  | fuel + 1, depth, cs =>
    match cs, depth with
    | '[' :: _, 0 => none
    | '\x7b' :: _, 0 => none
    | '[' :: rest, depth + 1 => readItems? fuel depth [] rest
    | '\x7b' :: rest, depth + 1 => readPairs? fuel depth [] rest
    | '"' :: _, _ => (readString? cs).map fun (s, rest) => (.string s, rest)
    | '\'' :: _, _ => (readString? cs).map fun (s, rest) => (.string s, rest)
    | _, _ => readScalar? cs

/-- The items of an array up to its closing bracket. -/
def readItems? : Nat → Nat → List Toml → List Char → Option (Toml × List Char)
  | 0, _, _, _ => none
  | fuel + 1, depth, items, cs =>
    match dropAllSpace? cs with
    | some (']' :: rest) => some (.array items, rest)
    | some rest =>
      match readValue? fuel depth rest with
      | some (v, rest) =>
        match dropAllSpace? rest with
        | some (',' :: rest) => readItems? fuel depth (items ++ [v]) rest
        | some (']' :: rest) => some (.array (items ++ [v]), rest)
        | _ => none
      | none => none
    | none => none

/-- The keys and values of a table in braces up to its closing brace. Lines may end anywhere but
inside a key. -/
def readPairs? : Nat → Nat → Entries → List Char → Option (Toml × List Char)
  | 0, _, _, _ => none
  | fuel + 1, depth, es, cs =>
    match dropAllSpace? cs with
    | some ('\x7d' :: rest) => some (.table .closed es, rest)
    | some rest =>
      match readAssigned? rest with
      | some (parts, rest) =>
        match readValue? fuel depth rest, splitKey? parts with
        | some (v, rest), some (path, key) =>
          match insert? path key v .closed es, dropAllSpace? rest with
          | some (_, es), some (',' :: rest) => readPairs? fuel depth es rest
          | some (_, es), some ('\x7d' :: rest) => some (.table .closed es, rest)
          | _, _ => none
        | _, _ => none
      | none => none
    | none => none

end

/-- The document read so far: its tables, and the path of the last header. -/
structure Draft where
  kind : TableKind := .headed
  entries : Entries := []
  path : List String := []

/-- The draft with a change made to its root table. -/
def Draft.change? (d : Draft) (f : TableKind → Entries → Option (TableKind × Entries))
    (path : List String) : Option Draft :=
  (f d.kind d.entries).map fun (kind, entries) => { kind, entries, path }

/-- The header that begins here, after its first bracket. -/
def readHeader? (d : Draft) (cs : List Char) : Option (Draft × List Char) :=
  match cs with
  | '[' :: cs => do
    let (parts, rest) ← readKey? cs
    let (path, key) ← splitKey? parts
    match rest with
    | ']' :: ']' :: rest => (d.change? (openNextTable? path key) parts).map (·, rest)
    | _ => none
  | cs => do
    let (parts, rest) ← readKey? cs
    let (path, key) ← splitKey? parts
    match rest with
    | ']' :: rest => (d.change? (openTable? path key) parts).map (·, rest)
    | _ => none

/-- The key with its value that begins here. -/
def readPair? (d : Draft) (cs : List Char) : Option (Draft × List Char) := do
  let (parts, rest) ← readKey? cs
  match rest with
  | '=' :: rest =>
    let (v, rest) ← readValue? (rest.length + 1) maxDepth (dropBlanks rest)
    let (path, key) ← splitKey? parts
    (d.change? (updateAt? false (insert? path key v) d.path) d.path).map (·, rest)
  | _ => none

/-- The text after the end of a line, or the empty text. -/
def endLine? (cs : List Char) : Option (List Char) :=
  match dropComment? (dropBlanks cs) with
  | some [] => some []
  | some ('\n' :: rest) => some rest
  | some ('\r' :: '\n' :: rest) => some rest
  | _ => none

/-- The rest of a document. Every line uses up a character. -/
def readLinesFrom? : Nat → Draft → List Char → Option Draft
  | 0, _, _ => none
  | fuel + 1, d, cs =>
    match dropAllSpace? cs with
    | some [] => some d
    | some ('[' :: rest) =>
      match readHeader? d rest with
      | some (d, rest) => (endLine? rest).bind (readLinesFrom? fuel d)
      | none => none
    | some rest =>
      match readPair? d rest with
      | some (d, rest) => (endLine? rest).bind (readLinesFrom? fuel d)
      | none => none
    | none => none

/-- The entries of a document, if the text is one. -/
def ofString? (text : String) : Option Entries :=
  let cs := match text.toList with
    | '\ufeff' :: cs => cs
    | cs => cs
  (readLinesFrom? (cs.length + 1) {} cs).map Draft.entries

end LikelyInvariants.Toml
