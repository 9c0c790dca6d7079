import LikelyInvariants.Platform.Shell.Script

/-!
# What a running script has

A script runs against texts that arrive at given times. Time passes only where the script sleeps or
waits for a text; everything it prints is stamped with the time. What can be read are sources, what
can be printed to are sinks, and numbered descriptors of the shell lead to them.
-/

namespace LikelyInvariants.Shell

/-- What can be read. -/
structure Source where
  /-- The texts that are not read yet, each with the time at which it arrives. -/
  pending : List (Nat × String) := []
  /-- When nothing more arrives, if there is such a time. -/
  ended : Option Nat := some 0

/-- Where a descriptor leads. -/
inductive Channel where
  | source (index : Nat)
  | sink (index : Nat)
  | nowhere
deriving DecidableEq

/-- What a shell has by itself: a subshell begins with a copy. -/
structure Environment where
  /-- The name under which the script runs. -/
  name : String := "sh"
  arguments : List String := []
  values : List (String × String) := []
  exported : List String := []
  readOnly : List String := []
  functions : List (String × Command) := []
  descriptors : List (Nat × Channel) := []
  /-- The letters of the options that are set. -/
  options : List Char := []
  /-- What is to be done at the end and when signals come. -/
  traps : List (String × String) := []
  /-- The loops around the command. -/
  loops : Nat := 0
  /-- The variables of the function that is being carried out, with what they were before. -/
  locals : Option (List (String × Option String)) := none
  /-- Whether tools print each line at once. -/
  lineBuffered : Bool := false
  /-- Whether `echo` prints backslashes as they are. -/
  plainEcho : Bool := false
  /-- Whether this is a part of a script beside or within another. -/
  inner : Bool := false

/-- A command that goes on beside the others. -/
structure Job where
  number : Nat
  status : Nat
  /-- When it ends, if it does. -/
  ended : Option Nat

structure Machine where
  env : Environment := {}
  sources : Array Source := #[]
  /-- What was printed and when, for each sink, the last first. -/
  sinks : Array (List (Nat × String)) := #[]
  /-- The files that were written, each with its sink. -/
  files : List (String × Nat) := []
  jobs : List Job := []
  /-- The time in milliseconds. -/
  clock : Nat := 0
  status : Nat := 0
  /-- The status of the script whose output was expanded last, while a command is prepared. -/
  expanded : Option Nat := none
  /-- How many more commands are carried out. -/
  budget : Nat := 100000
  /-- The time after which nothing matters, if there is one. -/
  horizon : Option Nat := none
  /-- When the program let go of its output, if it did before its end. -/
  outputClosed : Option Nat := none
  /-- When the program let go of its input. -/
  inputClosed : Option Nat := none

/-- Why a run does not go on with the next command. -/
inductive Stop where
  /-- It waits for a text that does not come. -/
  | waiting
  /-- It takes too many steps to be followed. -/
  | endless
  /-- The shell ends. -/
  | exited (status : Nat)
  /-- The function ends. -/
  | returned (status : Nat)
  /-- It leaves so many loops. -/
  | loopLeft (loops : Nat)
  /-- It leaves all but one of so many loops and goes on with that. -/
  | loopAgain (loops : Nat)

abbrev Run (α : Type) : Type := ExceptT Stop (StateM Machine) α

/-- The lines of a text with their ends; the last may have none. -/
def linesOf (s : String) : List String :=
  let lines := s.splitOn "\n"
  let last := lines.getLast?.getD ""
  lines.dropLast.map (· ++ "\n") ++ (if last.isEmpty then [] else [last])

/-- Characters that separate fields unless the script says otherwise. -/
def defaultSeparators : String := " \t\n"

namespace Environment

/-- The value of a variable, if it has one. -/
def valueOf? (e : Environment) (name : String) : Option String := e.values.lookup name

def separators (e : Environment) : String := (e.valueOf? "IFS").getD defaultSeparators

def setVariable (e : Environment) (name value : String) : Environment :=
  { e with values := (name, value) :: e.values.filter (·.1 ≠ name) }

def dropVariable (e : Environment) (name : String) : Environment :=
  { e with values := e.values.filter (·.1 ≠ name) }

def channel? (e : Environment) (descriptor : Nat) : Option Channel :=
  e.descriptors.lookup descriptor

/-- Lets a descriptor lead to a channel, or to none. -/
def setChannel (e : Environment) (descriptor : Nat) (c : Option Channel) : Environment :=
  let others := e.descriptors.filter (·.1 ≠ descriptor)
  { e with descriptors := (c.map (descriptor, ·)).toList ++ others }

end Environment

namespace Run

def env : Run Environment := return (← get).env

def modifyEnv (f : Environment → Environment) : Run Unit := modify fun m => { m with env := f m.env }

/-- Goes on to a time, unless it is over. -/
def waitUntil (time : Nat) : Run Unit := modify fun m => { m with clock := max m.clock time }

/-- A new source, whose texts are cut into lines. -/
def newSource (s : Source) : Run Channel := do
  let index := (← get).sources.size
  let pending := s.pending.flatMap fun (time, text) => (linesOf text).map (time, ·)
  modify fun m => { m with sources := m.sources.push { s with pending } }
  return .source index

/-- A new sink. -/
def newSink : Run Nat := do
  let index := (← get).sinks.size
  modify fun m => { m with sinks := m.sinks.push [] }
  return index

/-- What a sink holds. -/
def sinkTexts (index : Nat) : Run (List (Nat × String)) :=
  return ((← get).sinks[index]?.getD []).reverse

/-- Prints a text where a descriptor leads; tells whether that is possible. -/
def emit (descriptor : Nat) (s : String) : Run Bool := do
  match (← env).channel? descriptor with
  | some (.sink index) =>
    if !s.isEmpty then
      modify fun m => { m with sinks := m.sinks.modify index ((m.clock, s) :: ·) }
    return true
  | some .nowhere => return true
  | _ => return false

/-- A part of what a source holds. -/
inductive Taken where
  /-- A line with its end. -/
  | line (s : String)
  /-- What comes after the last end of a line, perhaps nothing. -/
  | last (s : String)
  /-- The descriptor does not lead to a source. -/
  | unreadable

/-- Cuts off the first line. The result has the line, whether it is complete, the time at which it
is there, and what follows. -/
def cutFirstLine : String → Nat → List (Nat × String) → String × Bool × Nat × List (Nat × String)
  | line, time, [] => (line, false, time, [])
  | line, time, (arrival, s) :: texts =>
    let (start, rest) := s.toList.span (· ≠ '\n')
    let time := max time arrival
    match rest with
    | [] => cutFirstLine (line ++ s) time texts
    | [_] => (line ++ String.ofList start, true, time, texts)
    | _ :: rest => (line ++ String.ofList start, true, time, (arrival, String.ofList rest) :: texts)

/-- Takes the next line where a descriptor leads, once it is there. -/
def takeLine (c : Option Channel) : Run Taken := do
  match c with
  | some .nowhere => return .last ""
  | some (.source index) =>
    let source := (← get).sources[index]?.getD {}
    let (line, complete, time, pending) := cutFirstLine "" 0 source.pending
    let leave (time : Nat) : Run Unit := do
      waitUntil time
      modify fun m => { m with sources := m.sources.modify index fun s => { s with pending } }
    match complete, source.ended with
    | true, _ => do
      leave time
      return .line line
    | false, some ended => do
      leave (max time ended)
      return .last line
    | false, none => throw .waiting
  | _ => return .unreadable

/-- Takes the next text where a descriptor leads, once it is there; `none` at the end. -/
def takeText (c : Option Channel) : Run (Option String) := do
  match c with
  | some (.source index) =>
    let source := (← get).sources[index]?.getD {}
    match source.pending, source.ended with
    | (time, s) :: pending, _ => do
      waitUntil time
      modify fun m => { m with sources := m.sources.modify index fun s => { s with pending } }
      return some s
    | [], some ended => do
      waitUntil ended
      return none
    | [], none => throw .waiting
  | _ => return none

/-- The name of a file without a mark of the directory the script is in. -/
def plainName (name : String) : String :=
  if name.startsWith "./" then String.ofList (name.toList.drop 2) else name

/-- Opens a file for reading. -/
def openForReading (name : String) : Run (Option Channel) := do
  let m ← get
  let name := plainName name
  match name with
  | "/dev/null" => return some .nowhere
  | "/dev/stdin" => return m.env.channel? 0
  | "/dev/fd/0" => return m.env.channel? 0
  | "/proc/self/fd/0" => return m.env.channel? 0
  | _ =>
    match m.files.lookup name with
    | none => return none
    | some index =>
      let pending := (← sinkTexts index).map fun (_, s) => (0, s)
      some <$> newSource { pending }

/-- Opens a file for writing, which may keep what it holds. -/
def openForWriting (name : String) (append : Bool) : Run (Option Channel) := do
  let m ← get
  let name := plainName name
  match name with
  | "/dev/null" => return some .nowhere
  | "/dev/stdout" => return m.env.channel? 1
  | "/dev/fd/1" => return m.env.channel? 1
  | "/proc/self/fd/1" => return m.env.channel? 1
  | "/dev/stderr" => return m.env.channel? 2
  | "/dev/fd/2" => return m.env.channel? 2
  | _ =>
    let directory := "/".intercalate (name.splitOn "/").dropLast
    let writable := ["", "/tmp", "/root", "/var/tmp", "/dev/shm"]
    if name.isEmpty || name.endsWith "/" || ["/tmp", "/dev"].contains name ||
        !writable.contains directory ||
        (directory.isEmpty && name.startsWith "/") then return none
    match m.files.lookup name, append with
    | some index, true => return some (.sink index)
    | some index, false => do
      modify fun m => { m with sinks := m.sinks.modify index fun _ => [] }
      return some (.sink index)
    | none, _ => do
      let index ← newSink
      modify fun m => { m with files := (name, index) :: m.files }
      return some (.sink index)

/-- Runs a part of a script; what it does to the shell is undone, however it ends. -/
def isolated {α : Type} (body : Run α) : Run (Except Stop α) := do
  let saved := (← get).env
  let result ← ExceptT.lift (body.run)
  modify fun m => { m with env := saved }
  return result

end Run

end LikelyInvariants.Shell
