import LikelyInvariants.Platform.Shell.Condition
import LikelyInvariants.Platform.Shell.Expansion
import LikelyInvariants.Platform.Shell.Flow
import LikelyInvariants.Platform.Shell.Format
import LikelyInvariants.Platform.Shell.Tool

/-!
# Commands of the shell

The commands that a shell has itself and that run no other commands: they print, read lines into
variables, test conditions, change what the shell has, or leave loops, functions and the shell.
-/

namespace LikelyInvariants.Shell

namespace Run

/-- Gives a variable a value, unless that is forbidden. -/
def assign (name value : String) : Run Unit := do
  let e ← env
  if e.readOnly.contains name then refuse
  let exported := if e.options.contains 'a' then name :: e.exported else e.exported
  modifyEnv fun e => { e.setVariable name value with exported }

/-- The parts of a text that an expansion gives. -/
def parts (quoted : Bool) (s : String) : List Part :=
  if quoted then [.text s true] else [.split s]

/-- All arguments, as one text or as one each. -/
def argumentParts (name : String) (quoted : Bool) : Run (List Part) := do
  let e ← env
  if e.arguments.isEmpty then return if name = "*" && quoted then [.text "" true] else [.nothing]
  if name = "*" && quoted then
    let separator := match e.valueOf? "IFS" with
      | none => " "
      | some s => String.ofList (s.toList.take 1)
    return [.text (separator.intercalate e.arguments) true]
  return (e.arguments.map (parts quoted)).intersperse [.fieldEnd] |>.flatten

/-- The value of a parameter, if it has one. -/
def parameter? (name : String) : Run (Option String) := do
  let m ← get
  match name.toNat? with
  | some 0 => return some m.env.name
  | some (k + 1) => return m.env.arguments[k]?
  | none =>
    match name with
    | "#" => return some (toString m.env.arguments.length)
    | "?" => return some (toString m.status)
    | "$" => return some (toString ownNumber)
    | "!" => return (m.jobs.head?.map fun j => toString j.number)
    | "-" => return some (String.ofList m.env.options)
    | _ => return m.env.valueOf? name

/-- A line without backslashes that take the meaning from a character, and whether one at its end
takes it from the end of the line. -/
def readEscapes : List Char → List (Char × Bool) × Bool
  | ['\\'] => ([], true)
  | '\\' :: c :: cs =>
    let (rest, goesOn) := readEscapes cs
    ((c, true) :: rest, goesOn)
  | c :: cs =>
    let (rest, goesOn) := readEscapes cs
    ((c, false) :: rest, goesOn)
  | [] => ([], false)

/-- Reads a line, which goes on over its end after a backslash unless it is taken as it stands. -/
def readInput (raw : Bool) : Nat → Run (List (Char × Bool) × Bool)
  | 0 => throw .endless
  | n + 1 => do
    let read (s : String) : List (Char × Bool) × Bool :=
      let cs := s.toList.filter (· ≠ '\x00')
      if raw then (cs.map (·, false), false) else readEscapes cs
    match ← takeLine ((← env).channel? 0) with
    | .line s =>
      match read s with
      | (cs, false) => return (cs, true)
      | (cs, true) => do
        let (more, complete) ← readInput raw n
        return (cs ++ more, complete)
    | .last s => return ((read s).1, false)
    | .unreadable => return ([], false)

/-- Reads a line into variables. -/
def readVariables (args : List String) : Run Nat := do
  let known : Options.Known := { flags := ['r'], valued := ['p'], mixed := false }
  match Options.read? known (args.length + 2) args with
  | none => return 2
  | some o =>
    if o.operands.isEmpty then return 2
    let (cs, complete) ← readInput (o.has 'r') 1000
    let fields := lineFields (← env).separators o.operands.length cs
    for (name, i) in o.operands.zipIdx do
      if !isName name then return 2
      assign name (fields[i]?.getD "")
    return if complete then 0 else 1

/-- What is known of a file. -/
def fileFacts (m : Machine) (name : String) : Option FileFacts :=
  match m.files.lookup (plainName name) with
  | some index =>
    let size := (m.sinks[index]?.getD []).foldl (fun size (_, s) => size + s.length) 0
    some { size }
  | none =>
    if ["/", "/tmp", "/dev", "/bin", "/usr", "/usr/bin", "/etc", "/root", ".", ".."].contains name then
      some { directory := true, size := 4096 }
    else if ["/dev/null", "/dev/zero", "/dev/tty"].contains name then some { special := true }
    else if ["/bin/sh", "/usr/bin/sh", "/bin/cat", "/usr/bin/env", "/bin/bash"].contains name then
      some { executable := true, size := 100000 }
    else if ["/etc/passwd", "/etc/hosts"].contains name then some { size := 1000 }
    else none

/-- The milliseconds of a time with an optional unit. -/
def milliseconds? (s : String) : Option Nat := do
  let cs := s.toList
  let (number, unit) := cs.span fun c => c.isDigit || c = '.'
  let unit ← match unit with
    | [] => some 1
    | ['s'] => some 1
    | ['m'] => some 60
    | ['h'] => some 3600
    | ['d'] => some 86400
    | _ => none
  let digits (ds : List Char) : Nat := (Arithmetic.digitsValue? 10 ds).getD 0
  let (whole, places) := number.span (· ≠ '.')
  let places := places.drop 1
  if (whole.isEmpty && places.isEmpty) || places.contains '.' then none
  let thousandths := digits ((places ++ ['0', '0', '0']).take 3)
  return (digits whole * 1000 + thousandths) * unit

/-- Waits for some times. -/
def sleep (args : List String) : Run Nat := do
  if args.contains "infinity" || args.contains "inf" then throw .waiting
  match args.mapM milliseconds? with
  | some times@(_ :: _) => do
    modify fun m => { m with clock := times.foldl (· + ·) m.clock }
    return 0
  | _ => return 1

/-- Waits until jobs have ended. -/
def waitForJobs (args : List String) : Run Nat := do
  let m ← get
  let awaited := m.jobs.filter fun j => args.isEmpty || args.contains (toString j.number)
  for j in awaited do
    match j.ended with
    | some time => waitUntil time
    | none => throw .waiting
  modify fun m => { m with jobs := m.jobs.filter fun j => !awaited.any (·.number = j.number) }
  match args, awaited with
  | [], _ => return 0
  | _, j :: _ => return j.status
  | _, [] => return 127

/-- Lets descriptors lead where they led before. -/
def restoreChannels (saved : List (Nat × Option Channel)) : Run Unit :=
  modifyEnv fun e => saved.foldl (fun e (d, c) => e.setChannel d c) e

/-- Takes notice when no descriptor of the program leads to its input or its output any more. -/
def noteClosed : Run Unit := do
  let m ← get
  let leads (c : Channel) : Bool := m.env.descriptors.any (·.2 = c)
  if !m.env.inner then
    if !leads (.sink 0) then
      modify fun m => { m with outputClosed := m.outputClosed.or (some m.clock) }
    if !leads (.source 0) then
      modify fun m => { m with inputClosed := m.inputClosed.or (some m.clock) }

/-- The letters and the other words of the arguments of `set`; `none` if an option is unknown. -/
def setOptions (options : List Char) : List String → Option (List Char × Option (List String))
  | [] => some (options, none)
  | "--" :: rest => some (options, some rest)
  | "-" :: rest => some (options, if rest.isEmpty then none else some rest)
  | "-o" :: name :: rest => do setOptions ((← letter? name) :: options) rest
  | "+o" :: name :: rest => do
    let c ← letter? name
    setOptions (options.filter (· ≠ c)) rest
  | s :: rest =>
    match s.toList with
    | '-' :: cs =>
      if cs.all known then setOptions (cs ++ options.filter (!cs.contains ·)) rest else none
    | '+' :: cs =>
      if cs.all known then setOptions (options.filter (!cs.contains ·)) rest else none
    | _ => some (options, some (s :: rest))
where
  /-- Whether a letter is an option. -/
  known (c : Char) : Bool :=
    ['a', 'b', 'C', 'e', 'f', 'h', 'i', 'm', 'n', 'p', 'u', 'v', 'x', 'I', 'V', 'E'].contains c
  /-- The letter of an option with a name. -/
  letter? (name : String) : Option Char :=
    [("errexit", 'e'), ("nounset", 'u'), ("noglob", 'f'), ("noexec", 'n'), ("xtrace", 'x'),
      ("verbose", 'v'), ("allexport", 'a'), ("noclobber", 'C'), ("monitor", 'm'), ("notify", 'b'),
      ("interactive", 'i')].lookup name

/-- Prints a text that a command of the shell has made. -/
def printOut (s : String) (status : Nat) : Run Nat := do
  if ← emit 1 s then return status else return 1

/-- A number that a command takes, or a default. -/
def numberArgument (args : List String) (dflt : Nat) : Run Nat := do
  match args with
  | [] => return dflt
  | s :: _ =>
    match Arithmetic.digitsValue? 10 s.toList with
    | some k => if s.isEmpty then refuse else return k
    | none => refuse

/-- Gives names to what the shell exports, forbids to change, or keeps for a function. -/
def declare (args : List String) (mark : String → Environment → Environment) : Run Nat := do
  for arg in args do
    let (name, value) := arg.toList.span (· ≠ '=')
    let name := String.ofList name
    if !isName name then refuse
    match value with
    | _ :: value => do
      modifyEnv (mark name)
      assign name (String.ofList value)
    | [] => modifyEnv (mark name)
  return 0

/-- Keeps what a variable is until the function ends. -/
def keepLocal (name : String) (e : Environment) : Environment :=
  { e with locals := e.locals.map fun kept => (name, e.valueOf? name) :: kept }

/-- Lets the variables of a function be what they were before it. -/
def restoreLocals (kept : List (String × Option String)) (e : Environment) : Environment :=
  kept.foldl (fun e (name, value) =>
    match value with
    | some value => e.setVariable name value
    | none => e.dropVariable name) e

/-- Commands of the shell that run no other commands. -/
def simpleBuiltin (name : String) (args : List String) : Option (Run Nat) :=
  match name with
  | ":" => some (return 0)
  | "true" => some (return 0)
  | "false" => some (return 1)
  | "echo" => some do
    printOut (if (← env).plainEcho then plainlyEchoed true false args else echoed args) 0
  | "printf" =>
    let print (format : String) (args : List String) : Run Nat :=
      let (s, status) := formatted format args
      printOut s status
    match args with
    | [] => some (return 2)
    | ["--"] => some (return 2)
    | "--" :: format :: args => some (print format args)
    | format :: args =>
      if format.startsWith "-" && format ≠ "-" then some (return 2) else some (print format args)
  | "read" => some (readVariables args)
  | "test" => some (return testStatus (fileFacts (← get)) (args.length + 1) false args)
  | "[" =>
    if args.getLast? = some "]" then
      some (return testStatus (fileFacts (← get)) (args.length + 1) false args.dropLast)
    else some (return 2)
  | "exit" => some do throw (.exited ((← numberArgument args (← get).status) % 256))
  | "return" => some do throw (.returned (← numberArgument args (← get).status))
  | "break" => some do
    let k ← numberArgument args 1
    let loops := (← env).loops
    if k = 0 then refuse
    if loops = 0 then return 0 else throw (.loopLeft (min k loops))
  | "continue" => some do
    let k ← numberArgument args 1
    let loops := (← env).loops
    if k = 0 then refuse
    if loops = 0 then return 0 else throw (.loopAgain (min k loops))
  | "shift" => some do
    let k ← numberArgument args 1
    if (← env).arguments.length < k then refuse
    modifyEnv fun e => { e with arguments := e.arguments.drop k }
    return 0
  | "set" => some do
    match setOptions (← env).options args with
    | none => refuse
    | some (options, arguments) => do
      modifyEnv fun e => { e with options, arguments := arguments.getD e.arguments }
      return 0
  | "unset" => some do
    let functions := args.head? = some "-f"
    for name in args do
      if (← env).readOnly.contains name then refuse
      modifyEnv fun e =>
        if functions then { e with functions := e.functions.filter (·.1 ≠ name) }
        else e.dropVariable name
    return 0
  | "export" => some (declare (args.filter (· ≠ "-p")) fun name e =>
      { e with exported := name :: e.exported })
  | "readonly" => some do
    let status ← declare (args.filter (· ≠ "-p")) fun _ e => e
    modifyEnv fun e => { e with
      readOnly := args.map (fun s => String.ofList (s.toList.takeWhile (· ≠ '='))) ++ e.readOnly }
    return status
  | "local" => some do
    if (← env).locals.isNone then refuse
    declare args keepLocal
  | "wait" => some (waitForJobs args)
  | "pwd" => some do printOut ((((← env).valueOf? "PWD").getD "/") ++ "\n") 0
  | "cd" => some do
    let target := args.headD (((← env).valueOf? "HOME").getD "/")
    let isDirectory := (fileFacts (← get) target).any (·.directory)
    if isDirectory && target.startsWith "/" then assign "PWD" target
    return if isDirectory || target.isEmpty then 0 else 2
  | "trap" => some do
    match args.filter (· ≠ "--") with
    | [] => return 0
    | ["-"] => return 0
    | [condition] =>
      let condition := signalName condition
      modifyEnv fun e => { e with traps := e.traps.filter (·.1 ≠ condition) }
      return 0
    | action :: conditions =>
      for condition in conditions do
        let condition := signalName condition
        let others := (← env).traps.filter (·.1 ≠ condition)
        modifyEnv fun e => { e with
          traps := if action = "-" then others else (condition, action) :: others }
      return 0
  | "umask" => some (if args.isEmpty then printOut "0022\n" 0 else return 0)
  | "ulimit" => some (return 0)
  | "times" => some (return 0)
  | "hash" => some (return 0)
  | "alias" => some (return 0)
  | "unalias" => some (return 0)
  | "jobs" => some (return 0)
  | "getopts" => some (return 1)
  | _ => none
where
  /-- The name of a signal without what may stand before it. -/
  signalName (s : String) : String :=
    match s with
    | "0" => "EXIT"
    | "1" => "HUP"
    | "2" => "INT"
    | "3" => "QUIT"
    | "9" => "KILL"
    | "13" => "PIPE"
    | "15" => "TERM"
    | s => if s.startsWith "SIG" then String.ofList (s.toList.drop 3) else s

/-- Commands of the shell that have no tool of their own. -/
def shellOnly : List String :=
  specialCommands ++
    ["alias", "bg", "cd", "command", "fg", "getopts", "hash", "jobs", "local", "read", "type",
      "ulimit", "umask", "unalias", "wait"]

end Run

end LikelyInvariants.Shell
