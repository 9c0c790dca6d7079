import LikelyInvariants.Platform.Shell.Regex
import LikelyInvariants.Platform.Shell.Tool

/-!
# Lines that match

The tool that prints the lines in which one of some expressions matches.
-/

namespace LikelyInvariants.Shell

/-- What lines are looked for and what is done with them. -/
structure LineSearch where
  patterns : List Regex
  fold : Bool := false
  inverted : Bool := false
  /-- A match must be a whole line. -/
  wholeLine : Bool := false
  /-- A match must have no character of a word before or after it. -/
  wholeWord : Bool := false
  quiet : Bool := false
  counting : Bool := false
  numbered : Bool := false
  named : Bool := false
  onlyNames : Bool := false
  onlyMatches : Bool := false
  most : Option Nat := none

namespace LineSearch

def known : Options.Known where
  flags := ['q', 's', 'v', 'i', 'y', 'E', 'F', 'G', 'x', 'w', 'c', 'n', 'h', 'H', 'l', 'o', 'U', 'a']
  valued := ['e', 'm']
  long :=
    [("quiet", 'q'), ("silent", 'q'), ("no-messages", 's'), ("invert-match", 'v'),
      ("ignore-case", 'i'), ("extended-regexp", 'E'), ("fixed-strings", 'F'), ("basic-regexp", 'G'),
      ("line-regexp", 'x'), ("word-regexp", 'w'), ("count", 'c'), ("line-number", 'n'),
      ("no-filename", 'h'), ("with-filename", 'H'), ("files-with-matches", 'l'),
      ("only-matching", 'o'), ("regexp", 'e'), ("max-count", 'm'), ("line-buffered", 'U'),
      ("text", 'a')]

/-- The expression that matches a text as it stands. -/
def fixed (s : String) : Regex :=
  s.toList.foldl (fun r c => .seq r (.char c)) .empty

/-- Where an expression matches from a place, as the search wants it. -/
def accepted (g : LineSearch) (start : Regex.Place) (r : Regex) : Option Regex.Place :=
  let fits (p : Regex.Place) : Bool :=
    (!g.wholeLine || (start.index = 0 && p.rest.isEmpty)) &&
      (!g.wholeWord ||
        (!Regex.isWordChar start.before && !Regex.isWordChar p.rest.head?))
  Regex.longest? ((r.ends g.fold [start]).filter fits)

/-- The first match from a place on. -/
def search? (g : LineSearch) : Nat → Regex.Place → Option (Regex.Place × Regex.Place)
  | 0, _ => none
  | n + 1, p =>
    match Regex.longest? (g.patterns.filterMap (g.accepted p)) with
    | some q => some (p, q)
    | none => p.next?.bind fun (_, q) => search? g n q

def isIn (g : LineSearch) (line : String) : Bool :=
  (g.search? (line.length + 1) (Regex.startOf line)).isSome

/-- The texts of all matches that are not empty. -/
def matchesFrom (g : LineSearch) : Nat → Regex.Place → List String
  | 0, _ => []
  | n + 1, p =>
    match g.search? (p.rest.length + 1) p with
    | none => []
    | some (start, stop) =>
      let text := String.ofList (start.rest.take (stop.index - start.index))
      if text.isEmpty then
        match stop.next? with
        | some (_, q) => matchesFrom g n q
        | none => []
      else text :: matchesFrom g n stop

/-- The search that some words ask for, and the files to look at. -/
def ofOptions? (o : Options) (spelling : Option Regex.Spelling) :
    Option (LineSearch × List String) := do
  let (patterns, names) ←
    if o.has 'e' then some (o.values 'e', o.operands)
    else
      match o.operands with
      | pattern :: names => some ([pattern], names)
      | [] => none
  let spelling :=
    if o.has 'F' then none
    else if o.has 'E' then some .extended
    else if o.has 'G' then some .basic
    else spelling
  let regexes ← (patterns.flatMap (·.splitOn "\n")).mapM fun p =>
    match spelling with
    | some spelling => Regex.ofString? spelling p
    | none => some (fixed p)
  let most ← match o.value? 'm' with
    | none => some none
    | some s => s.toNat?.map some
  return ({
    patterns := regexes
    fold := o.has 'i' || o.has 'y'
    inverted := o.has 'v'
    wholeLine := o.has 'x'
    wholeWord := o.has 'w'
    quiet := o.has 'q'
    counting := o.has 'c'
    numbered := o.has 'n'
    named := o.has 'H' || (1 < names.length && !o.has 'h')
    onlyNames := o.has 'l'
    onlyMatches := o.has 'o'
    most }, names)

/-- The search as a filter, which counts lines and those it selects. -/
def filter (g : LineSearch) : Filter (Nat × Nat) where
  start := (0, 0)
  line := fun (number, found) _ line =>
    let number := number + 1
    if g.isIn line != g.inverted then
      let found := found + 1
      let front := (if g.named then "(standard input):" else "") ++
        (if g.numbered then s!"{number}:" else "")
      let texts :=
        if g.quiet || g.counting || g.onlyNames then []
        else if g.onlyMatches then
          if g.inverted then [] else g.matchesFrom (line.length + 1) (Regex.startOf line)
        else [line]
      let out := String.join (texts.map fun s => front ++ s ++ "\n")
      let out := if g.onlyNames && !g.quiet then "(standard input)\n" else out
      ((number, found), out, g.quiet || g.onlyNames || g.most = some found)
    else ((number, found), "", g.most = some 0)
  finish := fun (_, found) =>
    let front := if g.named then "(standard input):" else ""
    (if g.counting && !g.quiet then s!"{front}{found}\n" else "", if found = 0 then 1 else 0)

end LineSearch

namespace Run

/-- Looks for lines, in basic or extended spelling or, without a spelling, for texts. -/
def searchLines (spelling : Option Regex.Spelling) (args : List String) : Run Nat := do
  match (Options.read? LineSearch.known (args.length + 2) args).bind fun o =>
      (LineSearch.ofOptions? o spelling).map (o, ·) with
  | none => return 2
  | some (o, g, names) => filterFiles g.filter (o.has 'U') names

end Run

end LikelyInvariants.Shell
