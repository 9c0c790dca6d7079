import LikelyInvariants.Platform.Shell.Format
import LikelyInvariants.Platform.Shell.Glob
import LikelyInvariants.Platform.Shell.Tool

/-!
# Tools for lines

Tools that print lines as they are, some of them, parts of them, or in another order.
-/

namespace LikelyInvariants.Shell

/-- Numbers from one on, perhaps up to another. -/
structure Span where
  first : Nat
  last : Option Nat

def Span.has (p : Span) (n : Nat) : Bool := p.first ≤ n && p.last.all (n ≤ ·)

/-- The parts that a list such as `1,3-5` names. -/
def partsOf? (s : String) : Option (List Span) :=
  (s.splitOn ",").mapM fun item =>
    match item.splitOn "-" with
    | [n] => n.toNat?.bind fun n => if n = 0 then none else some ⟨n, some n⟩
    | ["", b] => b.toNat?.map fun b => ⟨1, some b⟩
    | [a, ""] => a.toNat?.map fun a => ⟨a, none⟩
    | [a, b] => do return ⟨← a.toNat?, some (← b.toNat?)⟩
    | _ => none

/-- The fields of a line that some parts name; a line without a separator is one field. -/
def cutFields (separator : String) (parts : List Span) (line : String) : String :=
  match line.splitOn separator with
  | [_] => line
  | fields =>
    let chosen := fields.zipIdx.filterMap fun (field, i) =>
      if parts.any (·.has (i + 1)) then some field else none
    separator.intercalate chosen

/-- The characters of a line that some parts name. -/
def cutChars (parts : List Span) (line : String) : String :=
  String.ofList <| line.toList.zipIdx.filterMap fun (c, i) =>
    if parts.any (·.has (i + 1)) then some c else none

/-- A filter that prints so many lines. -/
def headFilter (most : Nat) : Filter Nat where
  start := 0
  line n complete line := (n + 1, withEnd complete line, most ≤ n + 1)
  finish _ := ("", 0)

/-- A filter that leaves out lines before one. -/
def tailFilter (first : Nat) : Filter Nat where
  start := 1
  line n complete line := (n + 1, if first ≤ n then withEnd complete line else "", false)
  finish _ := ("", 0)

/-- A filter that prints the last lines. -/
def lastFilter (most : Nat) : Filter (List String) where
  start := []
  line kept complete line := ((withEnd complete line :: kept).take most, "", false)
  finish kept := (String.join kept.reverse, 0)

/-- A filter that prints of lines that are equal only the first, perhaps with their number. -/
def uniqueFilter (counting : Bool) : Filter (Option (String × Nat)) where
  start := none
  line kept _ line :=
    match kept with
    | none => (some (line, 1), if counting then "" else line ++ "\n", false)
    | some (before, n) =>
      if before = line then (some (line, n + 1), "", false)
      else (some (line, 1), if counting then counted before n else line ++ "\n", false)
  finish kept :=
    match kept, counting with
    | some (line, n), true => (counted line n, 0)
    | _, _ => ("", 0)
where
  /-- A line after its number. -/
  counted (line : String) (n : Nat) : String :=
    let digits := toString n
    String.ofList (List.replicate (7 - digits.length) ' ') ++ digits ++ " " ++ line ++ "\n"

/-- A filter that collects lines and prints others made of them at the end. -/
def collectFilter (f : List String → List String) : Filter (List String) where
  start := []
  line kept _ line := (line :: kept, "", false)
  finish kept := (String.join ((f kept.reverse).map (· ++ "\n")), 0)

/-- How many lines, words and characters there are. -/
structure Counts where
  lines : Nat := 0
  words : Nat := 0
  chars : Nat := 0

def Counts.ofString (s : String) : Counts :=
  let cs := s.toList
  let isSpace (c : Char) : Bool := c == ' ' || ('\t' ≤ c && c ≤ '\x0d')
  let words := (cs.splitOnP isSpace).countP (!·.isEmpty)
  { lines := cs.count '\n', words, chars := cs.length }

/-- The characters that a set of `tr` names, one by one. -/
def translationSet : Nat → List Char → List Char
  | 0, _ => []
  | _ + 1, [] => []
  | n + 1, '[' :: ':' :: cs =>
    match setName? cs with
    | some (name, rest) =>
      ((List.range 256).map Char.ofNat).filter (namedSetHas name) ++ translationSet n rest
    | none => '[' :: translationSet n (':' :: cs)
  | n + 1, cs =>
    match readChar cs with
    | none => []
    | some (low, '-' :: rest) =>
      match readChar rest with
      | some (high, rest) =>
        (List.range (high.toNat + 1 - low.toNat)).map (fun i => Char.ofNat (low.toNat + i)) ++
          translationSet n rest
      | none => [low, '-']
    | some (c, rest) => c :: translationSet n rest
where
  /-- A character, which may be written with a backslash. -/
  readChar : List Char → Option (Char × List Char)
    | [] => none
    | '\\' :: c :: cs =>
      if isOctal c then
        let digits := octalDigits (c :: cs)
        some (octalByte digits, (c :: cs).drop digits.length)
      else some ((controlChar? c).getD c, cs)
    | c :: cs => some (c, cs)

/-- What is done with each character of a text. -/
structure Translation where
  source : List Char
  target : List Char := []
  complement : Bool := false
  delete : Bool := false
  squeeze : Bool := false

namespace Translation

def isIn (t : Translation) (c : Char) : Bool := t.source.contains c != t.complement

/-- What a character becomes. -/
def apply (t : Translation) (c : Char) : Char :=
  if t.delete || t.target.isEmpty || !t.isIn c then c
  else
    let last := t.target.getLast?.getD c
    if t.complement then last else t.target[t.source.idxOf c]?.getD last

/-- A text after the last character that was printed, translated. -/
def run (t : Translation) : Option Char → List Char → List Char × Option Char
  | last, [] => ([], last)
  | last, c :: cs =>
    let d := t.apply c
    let squeezed :=
      if t.target.isEmpty then t.isIn d && !t.delete else t.target.contains d
    if (t.delete && t.isIn c) || (t.squeeze && squeezed && last = some d) then t.run last cs
    else
      let (out, last) := t.run (some d) cs
      (d :: out, last)

end Translation

/-- The order of two lines, as texts or by the numbers at their beginnings. -/
def lineLe (numeric reversed : Bool) (a b : String) : Bool :=
  let value (s : String) : Int := (argumentNumber (decimal s)).1
  let le (a b : String) : Bool :=
    if numeric then value a < value b || (value a = value b && a ≤ b) else a ≤ b
  if reversed then le b a else le a b
where
  /-- The decimal number at the beginning, without zeros in front. -/
  decimal (s : String) : String :=
    let cs := s.toList.dropWhile (· = ' ')
    let (sign, ds) :=
      match cs with
      | '-' :: ds => (['-'], ds)
      | ds => ([], ds)
    String.ofList (sign ++ (ds.takeWhile Char.isDigit).dropWhile (· = '0'))

/-- Numbers from one to another. -/
def sequence (first step last : Int) : List Int :=
  if step = 0 then []
  else
    let count := if 0 < step then (last - first) / step else (first - last) / (-step)
    (List.range (min (count + 1).toNat 100000)).map fun (i : Nat) => first + step * (i : Int)

namespace Run

def usageError : Run Nat := return 1

/-- Copies files, or the input, as it comes. -/
def copyFiles (names : List String) : Run Nat := do
  let rec go (c : Option Channel) : Nat → Run Unit
    | 0 => throw .endless
    | n + 1 => do
      match ← takeText c with
      | some s =>
        let _ ← emit 1 s
        go c n
      | none => return
  let mut status := 0
  for name in (if names.isEmpty then ["-"] else names) do
    let channel ← if name = "-" then pure ((← env).channel? 0) else openForReading name
    match channel with
    | some c => go (some c) mostLines
    | none => status := 1
  return status

/-- Copies the input to the output and to files. -/
def teeFiles (append : Bool) (names : List String) : Run Nat := do
  let channels ← names.filterMapM (openForWriting · append)
  let before ← env
  modifyEnv fun e => channels.zipIdx.foldl (fun e (c, i) => e.setChannel (1000 + i) (some c)) e
  let rec go : Nat → Run Unit
    | 0 => throw .endless
    | n + 1 => do
      match ← takeText (before.channel? 0) with
      | some s =>
        let _ ← emit 1 s
        for i in List.range channels.length do
          let _ ← emit (1000 + i) s
        go n
      | none => return
  go mostLines
  return 0

/-- Prints the first lines, or the first characters, of files. -/
def printFirst (args : List String) : Run Nat := do
  let args := match args with
    | s :: rest =>
      match s.toList with
      | '-' :: c :: cs => if c.isDigit then "-n" :: String.ofList (c :: cs) :: rest else args
      | _ => args
    | [] => []
  let known : Options.Known :=
    { flags := ['q', 'v'], valued := ['n', 'c'], long := [("lines", 'n'), ("bytes", 'c')] }
  match Options.read? known (args.length + 2) args with
  | none => usageError
  | some o =>
    match o.value? 'c' with
    | some count => do
      let text ← wholeInput o.operands
      let _ ← emit 1 (String.ofList (text.toList.take (count.toNat?.getD 0)))
      return 0
    | none =>
      match ((o.value? 'n').getD "10").toNat? with
      | some 0 => return 0
      | some most => filterFiles (headFilter most) false o.operands
      | none => usageError

/-- Prints the last lines of files. -/
def printLast (args : List String) : Run Nat := do
  let args := match args with
    | s :: rest =>
      match s.toList with
      | '-' :: c :: cs => if c.isDigit then "-n" :: String.ofList (c :: cs) :: rest else args
      | '+' :: c :: cs => if c.isDigit then "-n" :: s!"+{String.ofList (c :: cs)}" :: rest else args
      | _ => args
    | [] => []
  let known : Options.Known :=
    { flags := ['q', 'v', 'f', 'F'], valued := ['n', 'c'], long := [("lines", 'n'), ("bytes", 'c')] }
  match Options.read? known (args.length + 2) args with
  | none => usageError
  | some o =>
    let count := (o.value? 'n').getD "10"
    match count.toList with
    | '+' :: ds =>
      match (String.ofList ds).toNat? with
      | some first => filterFiles (tailFilter first) (o.has 'f') o.operands
      | none => usageError
    | ds =>
      match (String.ofList (ds.dropWhile (· = '-'))).toNat? with
      | some most => filterFiles (lastFilter most) false o.operands
      | none => usageError

/-- Prints parts of lines. -/
def cutLines (args : List String) : Run Nat := do
  let known : Options.Known :=
    { flags := ['s', 'n'], valued := ['d', 'f', 'c', 'b']
      long := [("delimiter", 'd'), ("fields", 'f'), ("characters", 'c'), ("bytes", 'b'),
        ("only-delimited", 's')] }
  match Options.read? known (args.length + 2) args with
  | none => usageError
  | some o =>
    let chars := (o.value? 'c').or (o.value? 'b')
    match (o.value? 'f').bind partsOf?, chars.bind partsOf? with
    | some parts, none =>
      let separator := (o.value? 'd').getD "\t"
      let f : Filter Unit := {
        start := ()
        line := fun s _ line =>
          if o.has 's' && (line.splitOn separator).length = 1 then (s, "", false)
          else (s, cutFields separator parts line ++ "\n", false)
        finish := fun _ => ("", 0) }
      filterFiles f false o.operands
    | none, some parts =>
      let f : Filter Unit := {
        start := ()
        line := fun s _ line => (s, cutChars parts line ++ "\n", false)
        finish := fun _ => ("", 0) }
      filterFiles f false o.operands
    | _, _ => usageError

/-- Translates characters of the input. -/
def translate (args : List String) : Run Nat := do
  let known : Options.Known :=
    { flags := ['c', 'C', 'd', 's'], mixed := false
      long := [("complement", 'c'), ("delete", 'd'), ("squeeze-repeats", 's')] }
  match Options.read? known (args.length + 2) args with
  | none => usageError
  | some o =>
    let sets := o.operands.map fun s => translationSet (s.length + 1) s.toList
    let complement := o.has 'c' || o.has 'C'
    match sets, o.has 'd', o.has 's' with
    | [_], false, false => usageError
    | source :: rest, delete, squeeze =>
      let t : Translation := { source, target := rest.headD [], complement, delete, squeeze }
      let f : Filter (Option Char) := {
        start := none
        line := fun last complete line =>
          let (out, last) := t.run last (withEnd complete line).toList
          (last, String.ofList out, false)
        finish := fun _ => ("", 0) }
      filterFiles f false []
    | [], _, _ => usageError

/-- Counts lines, words and characters. -/
def countAll (args : List String) : Run Nat := do
  let known : Options.Known :=
    { flags := ['l', 'w', 'c', 'm'], long := [("lines", 'l'), ("words", 'w'), ("bytes", 'c'), ("chars", 'm')] }
  match Options.read? known (args.length + 2) args with
  | none => usageError
  | some o =>
    let c := Counts.ofString (← wholeInput o.operands)
    let all := o.given.isEmpty
    let numbers := (if all || o.has 'l' then [c.lines] else []) ++
      (if all || o.has 'w' then [c.words] else []) ++
      (if all || o.has 'c' || o.has 'm' then [c.chars] else [])
    let width := if 1 < numbers.length then 7 else 0
    let l : Layout := { width }
    let texts := numbers.map fun n => String.ofList (l.fill (toString n).toList)
    let _ ← emit 1 (" ".intercalate (texts ++ o.operands) ++ "\n")
    return 0

/-- Sorts lines. -/
def sortLines (args : List String) : Run Nat := do
  let known : Options.Known :=
    { flags := ['n', 'r', 'u', 's', 'f', 'b'], valued := ['k', 't'], long := [("reverse", 'r'), ("unique", 'u')] }
  match Options.read? known (args.length + 2) args with
  | none => return 2
  | some o =>
    let f := collectFilter fun lines =>
      let sorted := lines.mergeSort (lineLe (o.has 'n') (o.has 'r'))
      if o.has 'u' then sorted.eraseReps else sorted
    filterFiles f false o.operands

/-- Prints of equal lines in a row the first. -/
def uniqueLines (args : List String) : Run Nat := do
  match Options.read? { flags := ['c'], long := [("count", 'c')] } (args.length + 2) args with
  | none => usageError
  | some o => filterFiles (uniqueFilter (o.has 'c')) false o.operands

/-- Numbers lines that are not empty. -/
def numberFilter : Filter Nat where
  start := 1
  line n _ line :=
    if line.isEmpty then (n, "       \n", false)
    else
      let l : Layout := { width := 6 }
      (n + 1, String.ofList (l.fill (toString n).toList) ++ "\t" ++ line ++ "\n", false)
  finish _ := ("", 0)

/-- Prints the numbers of a sequence. -/
def printSequence (args : List String) : Run Nat := do
  let print (first step last : Option Int) : Run Nat := do
    match first, step, last with
    | some first, some step, some last =>
      let _ ← emit 1 (String.join ((sequence first step last).map fun n => s!"{n}\n"))
      return 0
    | _, _, _ => usageError
  match args with
  | [last] => print (some 1) (some 1) last.toInt?
  | [first, last] => print first.toInt? (some 1) last.toInt?
  | [first, step, last] => print first.toInt? step.toInt? last.toInt?
  | _ => usageError

end Run

end LikelyInvariants.Shell
