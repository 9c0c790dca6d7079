import LikelyInvariants.Platform.Shell.Format
import LikelyInvariants.Platform.Shell.Regex
import LikelyInvariants.Platform.Shell.Tool

/-!
# Editing a stream of lines

The language of the stream editor. Its commands are carried out for each line that is read, those
with addresses only for the lines the addresses name; then the line is printed as it has become.
-/

namespace LikelyInvariants.Shell

namespace Edit

/-- Names lines. -/
inductive Address where
  | line (n : Nat)
  /-- A line and those at so many lines' distance after it. -/
  | every (first step : Nat)
  | lastLine
  | pattern (r : Regex) (fold : Bool)

/-- A part of what is put in the place of a match. -/
inductive NewPart where
  | text (s : String)
  /-- What a group matched, or all of the match. -/
  | group (n : Nat)

/-- Puts something in the place of matches. -/
structure Substitution where
  pattern : Regex
  fold : Bool := false
  parts : List NewPart
  /-- The first match that is replaced. -/
  first : Nat := 1
  /-- Whether the matches after it are replaced too. -/
  all : Bool := false
  print : Bool := false

inductive Action where
  /-- What follows up to a command is done only if the addresses name the line. -/
  | block (stop : Nat)
  | blockEnd
  | label (name : String)
  | substitute (s : Substitution)
  | translate (source target : List Char)
  | print
  | printFirst
  | delete
  | deleteFirst
  | next
  | join
  | quit (silently : Bool) (status : Nat)
  | hold (append : Bool)
  | fetch (append : Bool)
  | exchange
  | number
  | after (s : String)
  | before (s : String)
  | change (s : String)
  | jump (label : String)
  | jumpIfReplaced (label : String) (replaced : Bool)

structure Step where
  start : Option Address := none
  stop : Option Address := none
  negated : Bool := false
  action : Action

/-- Where in a set of characters a place in an expression is. -/
inductive SetPlace where
  | outside
  /-- After the opening bracket, or after that and the sign of negation. -/
  | opened
  | inside
deriving DecidableEq

/-- What stands up to a mark that has no backslash and, in an expression, is in no set of characters,
and what follows the mark. A backslash before the mark is taken away. In an expression a backslash
and an `n` become the end of a line. -/
def upTo? (mark : Char) (expression : Bool) : SetPlace → List Char → Option (List Char × List Char)
  | _, [] => none
  | .outside, '\\' :: c :: cs =>
    let start :=
      if c = mark then [c]
      else if expression ∧ c = 'n' then ['\n']
      else if expression ∧ c = 't' then ['\t']
      else ['\\', c]
    (upTo? mark expression .outside cs).map fun (inside, rest) => (start ++ inside, rest)
  | place, c :: cs =>
    let goOn (place : SetPlace) := (upTo? mark expression place cs).map fun (inside, rest) =>
      (c :: inside, rest)
    match place with
    | .outside =>
      if c = mark then some ([], cs)
      else if expression ∧ c = '[' then goOn .opened
      else goOn .outside
    | .opened => if c = '^' then goOn .opened else goOn .inside
    | .inside => if c = ']' then goOn .outside else goOn .inside

/-- The parts of what is put in the place of a match. -/
def newParts : List Char → List NewPart
  | [] => []
  | '&' :: cs => .group 0 :: newParts cs
  | '\\' :: c :: cs =>
    if c.isDigit then .group (c.toNat - '0'.toNat) :: newParts cs
    else if c = '\n' then .text "\n" :: newParts cs
    else
      let d := if ['n', 't', 'a', 'f', 'v', 'r'].contains c then (controlChar? c).getD c else c
      .text d.toString :: newParts cs
  | c :: cs => .text c.toString :: newParts cs

/-- A number in front, if there is one. -/
def number? (cs : List Char) : Option (Nat × List Char) :=
  let digits := cs.takeWhile Char.isDigit
  (String.ofList digits).toNat?.map fun n => (n, cs.drop digits.length)

def skipSpace (cs : List Char) : List Char := cs.dropWhile fun c => c = ' ' ∨ c = '\t'

/-- An address in front, if there is one. -/
def address? (spelling : Regex.Spelling) (cs : List Char) : Option (Option Address × List Char) :=
  let pattern (mark : Char) (cs : List Char) : Option (Option Address × List Char) := do
    let (inside, rest) ← upTo? mark true .outside cs
    let r ← Regex.ofString? spelling (String.ofList inside)
    match rest with
    | 'I' :: rest => return (some (.pattern r true), rest)
    | rest => return (some (.pattern r false), rest)
  match cs with
  | '$' :: cs => some (some .lastLine, cs)
  | '/' :: cs => pattern '/' cs
  | '\\' :: mark :: cs => pattern mark cs
  | cs =>
    match number? cs with
    | some (n, '~' :: rest) => (number? rest).map fun (k, rest) => (some (.every n k), rest)
    | some (n, rest) => some (some (.line n), rest)
    | none => some (none, cs)

/-- The flags of a substitution. -/
def flags? : Nat → Substitution → List Char → Option (Substitution × List Char)
  | 0, _, _ => none
  | n + 1, s, cs =>
    match cs with
    | 'g' :: cs => flags? n { s with all := true } cs
    | 'p' :: cs => flags? n { s with print := true } cs
    | 'i' :: cs => flags? n { s with fold := true } cs
    | 'I' :: cs => flags? n { s with fold := true } cs
    | cs =>
      match number? cs with
      | some (0, _) => none
      | some (k, rest) => flags? n { s with first := k } rest
      | none => some (s, cs)

/-- A text after a command, up to the end of the line. -/
def text (cs : List Char) : String × List Char :=
  let cs := skipSpace cs
  let cs :=
    match cs with
    | '\\' :: rest =>
      match skipSpace rest with
      | '\n' :: rest => rest
      | rest => rest
    | cs => cs
  let (line, rest) := cs.span (· ≠ '\n')
  (String.ofList (line.filter (· ≠ '\\')), rest)

/-- The name of a label, up to a semicolon or the end of the line. -/
def labelName (cs : List Char) : String × List Char :=
  let (name, rest) := (skipSpace cs).span fun c => c ≠ '\n' ∧ c ≠ ';' ∧ c ≠ '\x7d'
  (String.ofList (name.reverse.dropWhile (· = ' ')).reverse, rest)

/-- What a command does, and what follows it. The end of a block is not known yet. -/
def action? (spelling : Regex.Spelling) (cs : List Char) : Option (Action × List Char) :=
  match cs with
  | '\x7b' :: cs => some (.block 0, cs)
  | '\x7d' :: cs => some (.blockEnd, cs)
  | ':' :: cs =>
    let (name, rest) := (skipSpace cs).span fun c => c ≠ '\n' ∧ c ≠ ';' ∧ c ≠ ' '
    some (.label (String.ofList name), rest)
  | 's' :: mark :: cs => do
    let (inside, rest) ← upTo? mark true .outside cs
    let (new, rest) ← upTo? mark false .outside rest
    let pattern ← Regex.ofString? spelling (String.ofList inside)
    let (s, rest) ← flags? (rest.length + 1) { pattern, parts := newParts new } rest
    return (.substitute s, rest)
  | 'y' :: mark :: cs => do
    let (source, rest) ← upTo? mark true .outside cs
    let (target, rest) ← upTo? mark true .outside rest
    if source.length = target.length then return (.translate source target, rest) else none
  | 'p' :: cs => some (.print, cs)
  | 'P' :: cs => some (.printFirst, cs)
  | 'd' :: cs => some (.delete, cs)
  | 'D' :: cs => some (.deleteFirst, cs)
  | 'n' :: cs => some (.next, cs)
  | 'N' :: cs => some (.join, cs)
  | 'q' :: cs =>
    let (status, rest) := (number? (skipSpace cs)).getD (0, cs)
    some (.quit false status, rest)
  | 'Q' :: cs =>
    let (status, rest) := (number? (skipSpace cs)).getD (0, cs)
    some (.quit true status, rest)
  | 'h' :: cs => some (.hold false, cs)
  | 'H' :: cs => some (.hold true, cs)
  | 'g' :: cs => some (.fetch false, cs)
  | 'G' :: cs => some (.fetch true, cs)
  | 'x' :: cs => some (.exchange, cs)
  | '=' :: cs => some (.number, cs)
  | 'a' :: cs => let (s, rest) := text cs; some (.after s, rest)
  | 'i' :: cs => let (s, rest) := text cs; some (.before s, rest)
  | 'c' :: cs => let (s, rest) := text cs; some (.change s, rest)
  | 'b' :: cs => let (s, rest) := labelName cs; some (.jump s, rest)
  | 't' :: cs => let (s, rest) := labelName cs; some (.jumpIfReplaced s true, rest)
  | 'T' :: cs => let (s, rest) := labelName cs; some (.jumpIfReplaced s false, rest)
  | _ => none

/-- The steps of a script. -/
def steps? (spelling : Regex.Spelling) : Nat → List Char → Option (List Step)
  | 0, _ => none
  | n + 1, cs =>
    match cs.dropWhile fun c => c = ' ' ∨ c = '\t' ∨ c = '\n' ∨ c = ';' with
    | [] => some []
    | '#' :: cs => steps? spelling n (cs.dropWhile (· ≠ '\n'))
    | cs => do
      let (start, rest) ← address? spelling cs
      let (stop, rest) ← match start, skipSpace rest with
        | some _, ',' :: rest => address? spelling (skipSpace rest)
        | _, rest => some (none, rest)
      let rest := skipSpace rest
      let negated := rest.head? = some '!'
      let rest := skipSpace (if negated then rest.tail else rest)
      let (action, rest) ← action? spelling rest
      let opensBlock : Bool := match action with
        | .block _ => true
        | _ => false
      let rest := skipSpace rest
      let ends := opensBlock || rest.head?.all [';', '\n', '\x7d', '#'].contains
      if !ends then none
      return { start, stop, negated, action } :: (← steps? spelling n rest)

/-- The number of the step at which a block ends that begins before some steps. -/
def blockStop? : Nat → Nat → List Step → Option Nat
  | _, _, [] => none
  | depth, k, s :: ss =>
    match s.action, depth with
    | .blockEnd, 0 => some k
    | .blockEnd, depth + 1 => blockStop? depth (k + 1) ss
    | .block _, depth => blockStop? (depth + 1) (k + 1) ss
    | _, depth => blockStop? depth (k + 1) ss

/-- Lets each block know where it ends. -/
def closeBlocks? : Nat → List Step → Option (List Step)
  | _, [] => some []
  | k, s :: ss => do
    let rest ← closeBlocks? (k + 1) ss
    match s.action with
    | .block _ => return { s with action := .block (← blockStop? 0 (k + 1) ss) } :: rest
    | _ => return s :: rest

/-- What the editor has while it goes through lines. -/
structure State where
  line : Nat := 0
  space : String := ""
  /-- Whether the line that was read last had an end. -/
  complete : Bool := true
  held : String := ""
  replaced : Bool := false
  /-- The texts to be printed after the line. -/
  later : List String := []
  /-- The steps whose ranges of lines have begun, with the lines at which they end, if known. -/
  ranges : List (Nat × Option Nat) := []
  /-- What is held back of what is printed. -/
  out : String := ""

/-- What comes after a step. -/
inductive Next where
  | step (k : Nat)
  /-- The end of the script for this line. -/
  | lineDone
  /-- The line is not printed. -/
  | lineDropped
  /-- The script starts again without reading a line. -/
  | again
  /-- The editor ends as after the last line. -/
  | stop
  /-- The editor ends at once. -/
  | quit (status : Nat)

/-- How the editor was called. -/
structure Call where
  steps : Array Step
  quiet : Bool
  atOnce : Bool
  input : Option Channel

abbrev Editing (α : Type) : Type := StateT State (ExceptT Stop (StateM Machine)) α

namespace Editing

def print (call : Call) (s : String) : Editing Unit := do
  let (out, held) := overflow call.atOnce ((← get).out ++ s)
  modify fun e => { e with out := held }
  let _ ← (Run.emit 1 out : Run Bool)

def printSpace (call : Call) : Editing Unit := do
  let e ← get
  print call (withEnd e.complete e.space)

/-- Prints what comes after a line. -/
def printLater (call : Call) : Editing Unit := do
  let e ← get
  set { e with later := [] }
  for s in e.later do
    print call (s ++ "\n")

/-- Reads the next line, if there is one. -/
def readLine (call : Call) : Editing (Option (String × Bool)) := do
  match ← (Run.takeLine call.input : Run Run.Taken) with
  | .line s => return some (s, true)
  | .last "" => return none
  | .last s => return some (s, false)
  | .unreadable => return none

/-- Whether nothing comes after the line; it waits until this is known. -/
def atLast (call : Call) : Editing Bool := do
  match call.input with
  | some (.source index) =>
    let source := (← (get : Run Machine)).sources[index]?.getD {}
    match source.pending, source.ended with
    | (time, _) :: _, _ => do
      (Run.waitUntil time : Run Unit)
      return false
    | [], some ended => do
      (Run.waitUntil ended : Run Unit)
      return true
    | [], none => (throw .waiting : Run Bool)
  | _ => return true

/-- Whether an address names the line. -/
def names (call : Call) (a : Address) : Editing Bool := do
  let e ← get
  match a with
  | .line n => return e.line = n
  | .every first step =>
    return if step = 0 then e.line = first else first ≤ e.line && (e.line - first) % step = 0
  | .lastLine => atLast call
  | .pattern r fold => return (r.find? fold e.space).isSome

/-- Whether a step is done for the line. -/
def chosen (call : Call) (k : Nat) (s : Step) : Editing Bool := do
  match s.start, s.stop with
  | none, _ => return true
  | some a, none => names call a
  | some a, some b => do
    let e ← get
    let leave : Editing Unit := modify fun e => { e with ranges := e.ranges.filter (·.1 ≠ k) }
    match e.ranges.lookup k with
    | some (some last) => do
      if last ≤ e.line then leave
      return e.line ≤ last
    | some none => do
      if ← names call b then leave
      return true
    | none =>
      if ← names call a then
        match b with
        | .line n =>
          if e.line < n then modify fun e => { e with ranges := (k, some n) :: e.ranges }
        | _ => modify fun e => { e with ranges := (k, none) :: e.ranges }
        return true
      else return false

/-- What is put in the place of a match. -/
def newText (s : Substitution) (start stop : Regex.Place) : String :=
  String.join <| s.parts.map fun
    | .text t => t
    | .group 0 => String.ofList (start.rest.take (stop.index - start.index))
    | .group n => String.ofList ((stop.groups.lookup n).getD [])

/-- A text from a place on with matches replaced, and whether there were any. The match at the end
of the one before it does not count if it is empty. -/
def substituted (s : Substitution) : Nat → Nat → Option Nat → Regex.Place → String × Bool
  | 0, _, _, p => (String.ofList p.rest, false)
  | n + 1, count, before, p =>
    match Regex.search? s.fold s.pattern (p.rest.length + 1) p with
    | none => (String.ofList p.rest, false)
    | some (start, stop) =>
      let skipped := String.ofList (p.rest.take (start.index - p.index))
      let isEmpty := start.index = stop.index
      if isEmpty ∧ before = some start.index then
        match start.next? with
        | none => (skipped, false)
        | some (c, q) =>
          let (rest, found) := substituted s n count none q
          (skipped ++ c.toString ++ rest, found)
      else
        let replace := s.first = count ∨ (s.all ∧ s.first ≤ count)
        let old := String.ofList (start.rest.take (stop.index - start.index))
        let new := if replace then newText s start stop else old
        let stop := { stop with groups := [] }
        if replace ∧ !s.all then (skipped ++ new ++ String.ofList stop.rest, true)
        else
          let (rest, found) :=
            if isEmpty then
              match stop.next? with
              | none => ("", false)
              | some (c, q) =>
                let (rest, found) := substituted s n (count + 1) none q
                (c.toString ++ rest, found)
            else substituted s n (count + 1) (some stop.index) stop
          (skipped ++ new ++ rest, replace || found)

/-- The step after a label, or after the last. -/
def target (call : Call) (name : String) : Next :=
  if name.isEmpty then .lineDone
  else
    match call.steps.findIdx? fun s =>
        match s.action with
        | .label l => l = name
        | _ => false with
    | some k => .step (k + 1)
    | none => .lineDone

/-- What a step does. -/
def perform (call : Call) (k : Nat) (s : Step) : Editing Next := do
  let go : Next := .step (k + 1)
  match s.action with
  | .block _ => return go
  | .blockEnd => return go
  | .label _ => return go
  | .substitute sub => do
    let e ← get
    let place := Regex.startOf e.space
    let (space, found) := substituted sub (2 * e.space.length + 4) 1 none place
    if found then
      set { e with space, replaced := true }
      if sub.print then printSpace call
    return go
  | .translate source target => do
    modify fun e => { e with
      space := e.space.map fun c => target[source.idxOf c]?.getD c }
    return go
  | .print => do
    printSpace call
    return go
  | .printFirst => do
    print call ((((← get).space.splitOn "\n").headD "") ++ "\n")
    return go
  | .delete => return .lineDropped
  | .deleteFirst => do
    let e ← get
    match e.space.splitOn "\n" with
    | _ :: rest@(_ :: _) => do
      set { e with space := "\n".intercalate rest }
      return .again
    | _ => return .lineDropped
  | .next => do
    if ← atLast call then
      if call.quiet then return .lineDropped else return .stop
    if !call.quiet then printSpace call
    printLater call
    match ← readLine call with
    | none => return .stop
    | some (space, complete) => do
      modify fun e => { e with line := e.line + 1, space, complete }
      return go
  | .join => do
    if ← atLast call then return .stop
    printLater call
    match ← readLine call with
    | none => return .stop
    | some (space, complete) => do
      modify fun e => { e with line := e.line + 1, space := e.space ++ "\n" ++ space, complete }
      return go
  | .quit silently status => do
    if !silently then
      if !call.quiet then printSpace call
      printLater call
    modify fun e => { e with space := "" }
    return .quit status
  | .hold append => do
    modify fun e => { e with held := if append then e.held ++ "\n" ++ e.space else e.space }
    return go
  | .fetch append => do
    modify fun e => { e with space := if append then e.space ++ "\n" ++ e.held else e.held }
    return go
  | .exchange => do
    modify fun e => { e with space := e.held, held := e.space }
    return go
  | .number => do
    print call (toString (← get).line ++ "\n")
    return go
  | .after s => do
    modify fun e => { e with later := e.later ++ [s] }
    return go
  | .before s => do
    print call (s ++ "\n")
    return go
  | .change s => do
    let inRange := ((← get).ranges.lookup k).isSome
    if !inRange || s.isEmpty then print call (s ++ "\n")
    return .lineDropped
  | .jump label => return target call label
  | .jumpIfReplaced label replaced => do
    let e ← get
    set { e with replaced := false }
    return if e.replaced = replaced then target call label else go

/-- Carries out the script for a line, from a step on. The result is the status at which the editor
ends, if it ends, and whether the line is taken again. -/
def runSteps (call : Call) : Nat → Nat → Editing (Option Nat × Bool)
  | 0, _ => throw .endless
  | n + 1, k => do
    let finish (print : Bool) : Editing Unit := do
      if print && !call.quiet then printSpace call
      printLater call
    match call.steps[k]? with
    | none => do
      finish true
      return (none, false)
    | some s => do
      let next ←
        if (← chosen call k s) != s.negated then perform call k s
        else
          match s.action with
          | .block stop => pure (.step (stop + 1))
          | _ => pure (.step (k + 1))
      match next with
      | .step k => runSteps call n k
      | .lineDone => do
        finish true
        return (none, false)
      | .lineDropped => do
        finish false
        return (none, false)
      | .again => do
        printLater call
        return (none, true)
      | .stop => do
        finish true
        return (some 0, false)
      | .quit status => return (some status, false)

/-- Goes through the lines of the input. -/
def runLines (call : Call) : Nat → Bool → Editing Nat
  | 0, _ => throw .endless
  | n + 1, again => do
    let line ← if again then pure none else readLine call
    if line.isNone && !again then return 0
    match line with
    | some (space, complete) =>
      modify fun e => { e with line := e.line + 1, space, complete, replaced := false }
    | none => pure ()
    match ← runSteps call 100000 0 with
    | (some status, _) => return status
    | (none, again) => runLines call n again

end Editing

end Edit

namespace Run

/-- Edits the lines of files, or of the input. -/
def editLines (args : List String) : Run Nat := do
  let known : Options.Known :=
    { flags := ['n', 'E', 'r', 'u', 's', 'z'], valued := ['e']
      long := [("quiet", 'n'), ("silent", 'n'), ("regexp-extended", 'E'), ("unbuffered", 'u'),
        ("expression", 'e')] }
  match Options.read? known (args.length + 2) args with
  | none => return 1
  | some o =>
    if !o.has 'e' && o.operands.isEmpty then return 1
    let (script, names) :=
      if o.has 'e' then ("\n".intercalate (o.values 'e'), o.operands)
      else (o.operands.headD "", o.operands.tail)
    let spelling : Regex.Spelling := if o.has 'E' || o.has 'r' then .extended else .basic
    let steps := (Edit.steps? spelling (script.length + 2) script.toList).bind (Edit.closeBlocks? 0)
    match steps with
    | none => return 1
    | some steps =>
      let input ← match names with
        | [] => pure ((← env).channel? 0)
        | names => do
          let text ← wholeInput names
          some <$> newSource { pending := [(0, text)] }
      let atOnce := o.has 'u' || (← env).lineBuffered
      let call : Edit.Call := { steps := steps.toArray, quiet := o.has 'n', atOnce, input }
      let (status, e) ← (Edit.Editing.runLines call mostLines false).run {}
      let _ ← emit 1 e.out
      return status

end Run

end LikelyInvariants.Shell
