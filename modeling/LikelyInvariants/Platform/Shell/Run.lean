import LikelyInvariants.Platform.Shell.Program

/-!
# Carrying out shell scripts

Commands are carried out one after another against the state of the machine: their words are
expanded, their descriptors led elsewhere, and what their names stand for is looked up among the
functions of the script, the commands of the shell and the tools.
-/

namespace LikelyInvariants.Shell

namespace Run

mutual

/-- Expands a word to parts. With `split`, what is not quoted is cut like what expansions give. -/
def expandWord : Nat → Bool → Word → Run (List Part)
  | 0, _, _ => throw .endless
  | n + 1, split, w => do
    let mut result := []
    for p in w do
      result := result ++ (← expandPiece n split p)
    return result

/-- Expands a piece of a word. -/
def expandPiece : Nat → Bool → Piece → Run (List Part)
  | 0, _, _ => throw .endless
  | n + 1, split, p => do
    match p with
    | .text s quoted => return if split && !quoted then [.split s] else [.text s quoted]
    | .value name rule quoted => expandValue n name rule quoted
    | .number expression quoted => do
      let s := Part.textOf (← expandWord n false expression)
      let e ← env
      match (Arithmetic.ofString? s).bind (Arithmetic.eval? e.values) with
      | none => refuse
      | some (value, values) => do
        for (name, text) in (values.take (values.length - e.values.length)).reverse do
          assign name text
        return parts quoted (toString value)
    | .output c quoted => return parts quoted (← captured n c)

/-- What a script prints, without the ends of lines at its end. -/
def captured : Nat → Command → Run String
  | 0, _ => throw .endless
  | n + 1, c => do
    let sink ← newSink
    let status ← resume (← inSubshell (·.setChannel 1 (some (.sink sink))) (performLast n false c))
    modify fun m => { m with expanded := some status }
    let text := String.join ((← sinkTexts sink).map (·.2))
    let cs := (text.toList.filter (· ≠ '\x00')).reverse.dropWhile (· = '\n')
    return String.ofList cs.reverse

/-- Expands a parameter by a rule. -/
def expandValue : Nat → String → ValueRule → Bool → Run (List Part)
  | 0, _, _, _ => throw .endless
  | n + 1, name, rule, quoted => do
    let isAll := name = "@" || name = "*"
    let value ← if isAll then pure none else parameter? name
    let all ← if isAll then argumentParts name quoted else pure []
    let given : Option (List Part) :=
      if isAll then
        if all matches [.nothing] then none else some all
      else value.map (parts quoted)
    let text := Part.textOf (given.getD [])
    let absent (orEmpty : Bool) : Bool := given.isNone || (orEmpty && text.isEmpty)
    let nothing : List Part := if isAll then [.nothing] else parts quoted ""
    let check : Run Unit := do
      if given.isNone && !isAll && (← env).options.contains 'u' then refuse
    match rule with
    | .itself => do
      check
      return given.getD nothing
    | .length => do
      check
      return parts quoted (toString text.length)
    | .whenAbsent orEmpty w =>
      if absent orEmpty then expandWord n (!quoted) w else return given.getD nothing
    | .givenWhenAbsent orEmpty w =>
      if absent orEmpty then do
        if !isName name then refuse
        let s := Part.textOf (← expandWord n (!quoted) w)
        assign name s
        return parts quoted s
      else return given.getD nothing
    | .required orEmpty => if absent orEmpty then refuse else return given.getD nothing
    | .whenPresent orEmpty w => if absent orEmpty then return nothing else expandWord n (!quoted) w
    | .withoutStart longest w => do
      check
      let pattern := globOf (Part.charsOf (← expandWord n false w))
      return parts quoted (String.ofList (dropGlobStart longest pattern text.toList))
    | .withoutEnd longest w => do
      check
      let pattern := globOf (Part.charsOf (← expandWord n false w))
      return parts quoted (String.ofList (dropGlobEnd longest pattern text.toList))
    | .unknown => refuse

/-- The fields of a word. -/
def wordFields : Nat → Word → Run (List String)
  | 0, _ => throw .endless
  | n + 1, w => do return fieldsOf (← env).separators (← expandWord n false w)

/-- The text of a word that is not cut into fields. -/
def wordText : Nat → Word → Run String
  | 0, _ => throw .endless
  | n + 1, w => do return Part.textOf (← expandWord n false w)

/-- Lets descriptors lead elsewhere. The result has where they led before, or is `none` if that
fails. -/
def redirect : Nat → List Redirection → Run (Option (List (Nat × Option Channel)))
  | 0, _ => throw .endless
  | _ + 1, [] => return some []
  | n + 1, r :: rs => do
    let (descriptor, channel) ← match r with
      | .reading d w => do
        let channel ← openForReading (← wordText n w)
        pure (d, channel.map some)
      | .writing d w append => do
        let channel ← openForWriting (← wordText n w) append
        pure (d, channel.map some)
      | .copying d w => do
        let source ← wordText n w
        if source = "-" then pure (d, some none)
        else
          match source.toNat? with
          | some k => pure (d, ((← env).channel? k).map some)
          | none => refuse
      | .document d w => do
        let text ← wordText n w
        let channel ← newSource { pending := [(0, text)] }
        pure (d, some (some channel))
    match channel with
    | none => return none
    | some channel => do
      let before := (← env).channel? descriptor
      modifyEnv (·.setChannel descriptor channel)
      match ← redirect n rs with
      | some saved => return some (saved ++ [(descriptor, before)])
      | none => do
        modifyEnv (·.setChannel descriptor before)
        return none

/-- Carries out a script, line by line. -/
def runText : Nat → Bool → String → Run Nat
  | 0, _, _ => throw .endless
  | n + 1, checked, s => forEachPortion (perform n checked) (s.length + 1) s.toList 0

/-- Carries out a command with which a shell ends. -/
def performLast : Nat → Bool → Command → Run Nat
  | 0, _, _ => throw .endless
  | n + 1, checked, c => toEnd (runText n true) (perform n checked c)

/-- Carries out a function with arguments. -/
def callFunction : Nat → Bool → Command → List String → Run Nat
  | 0, _, _, _ => throw .endless
  | n + 1, checked, body, args => do
    let before ← env
    modifyEnv fun e => { e with arguments := args, locals := some [], loops := 0 }
    let status ← tryCatch (perform n checked body) fun
      | .returned status => pure status
      | stop => throw stop
    modifyEnv fun e =>
      { restoreLocals (e.locals.getD []) e with
        arguments := before.arguments, locals := before.locals, loops := before.loops }
    return status

/-- Starts a shell as a tool, under the name by which it was called. -/
def runShell : Nat → String → Bool → List String → Run Nat
  | 0, _, _, _ => throw .endless
  | n + 1, name, plainEcho, args => do
    match invocation? [] args with
    | none => return 2
    | some call => do
      modifyEnv fun e =>
        { name := call.name.getD name, arguments := call.arguments
          values :=
            (e.values.filter fun v => e.exported.contains v.1 && v.1 ≠ "IFS") ++ startVariables
          exported := e.exported, descriptors := e.descriptors, options := call.options
          lineBuffered := e.lineBuffered, plainEcho, inner := e.inner }
      match call.script, call.name with
      | some script, _ => toEnd (runText n true) (runText n false script)
      | none, some file => do
        match ← openForReading file with
        | none => return 2
        | some channel => do
          let text ← isolated do
            modifyEnv (·.setChannel 0 (some channel))
            wholeInput []
          toEnd (runText n true) (runText n false (← resume text))
      | none, none => toEnd (runText n true) (forEachInputPortion (perform n false) mostLines [] 0)

/-- Carries out a tool. -/
def runTool : Nat → String → List String → Run Nat
  | 0, _, _ => throw .endless
  | n + 1, name, args => do
    let inner (args : List String) : Run Nat := do
      match args with
      | [] => return 0
      | name :: args => runTool n name args
    match toolName? name with
    | none => return startFailure (← get) name
    | some tool =>
      let result ← isolated do
        match tool with
        | "echo" => printOut (plainlyEchoed true false args) 0
        | "sh" => runShell n name false args
        | "dash" => runShell n name false args
        | "bash" => runShell n name true args
        | "kill" => return 0
        | "env" => do
          let options := args.takeWhile fun s => s = "-i" || s = "-"
          let rest := args.drop options.length
          if !options.isEmpty then modifyEnv fun e => { e with exported := [] }
          let settings := rest.takeWhile fun s => s.contains '=' && !s.startsWith "-"
          for s in settings do
            let (name, value) := s.toList.span (· ≠ '=')
            let name := String.ofList name
            modifyEnv fun e =>
              { e.setVariable name (String.ofList value.tail) with exported := name :: e.exported }
          inner (rest.drop settings.length)
        | "nice" =>
          match args with
          | "-n" :: _ :: args => inner args
          | args => inner args
        | "nohup" => inner args
        | "setsid" => inner args
        | "stdbuf" => do
          let options := args.takeWhile (·.startsWith "-")
          let lineBuffered := options.any fun s => s = "-oL" || s = "-o0" || s = "--output=L" || s = "--output=0"
          modifyEnv fun e => { e with lineBuffered := lineBuffered || e.lineBuffered }
          inner (args.drop options.length)
        | "timeout" => do
          let args := args.dropWhile (·.startsWith "-")
          match (args.head?).bind milliseconds? with
          | none => return 125
          | some limit => within limit (inner args.tail)
        | "xargs" => do
          let text ← wholeInput []
          let isBlank (c : Char) : Bool := c = ' ' || c = '\t' || c = '\n'
          let words := (text.toList.splitOnP isBlank).filter (!·.isEmpty) |>.map String.ofList
          match args with
          | "-n" :: "1" :: args => do
            for w in words do
              let _ ← inner ((if args.isEmpty then ["echo"] else args) ++ [w])
            return 0
          | args => inner ((if args.isEmpty then ["echo"] else args) ++ words)
        | _ =>
          match (simpleTool tool args).or (simpleBuiltin tool args) with
          | some body => body
          | none => return 127
      resume result

/-- Sends a signal. -/
def sendSignal : Nat → List String → Run Nat
  | 0, _ => throw .endless
  | n + 1, args => do
    let (signal, targets) := match args with
      | "-s" :: signal :: targets => (signal, targets)
      | "--" :: targets => ("TERM", targets)
      | s :: targets =>
        if s.startsWith "-" then (String.ofList (s.toList.drop 1), targets) else ("TERM", s :: targets)
      | [] => ("TERM", [])
    let signal := simpleBuiltin.signalName signal
    if signal = "EXIT" || signal = "l" then return 0
    let now := (← get).clock
    modify fun m => { m with
      jobs := m.jobs.map fun j =>
        if targets.contains (toString j.number) then
          { j with ended := some (min (j.ended.getD now) now), status := 143 } else j }
    if targets.any fun s => s = toString ownNumber || s = "0" then
      match (← env).traps.lookup signal with
      | some action => if signal = "KILL" then killed signal else runText n true action
      | none => if ["CHLD", "CONT", "WINCH", "URG"].contains signal then return 0 else killed signal
    else return 0
where
  /-- The shell ends without doing anything else. -/
  killed (signal : String) : Run Nat := do
    modifyEnv fun e => { e with traps := [] }
    let number := ([("HUP", 1), ("INT", 2), ("QUIT", 3), ("KILL", 9), ("PIPE", 13)].lookup signal).getD 15
    throw (.exited (128 + number))

/-- Carries out a command of the shell; `none` if there is none of the name. -/
def runBuiltin : Nat → Bool → String → List String → Run (Option Nat)
  | 0, _, _, _ => throw .endless
  | n + 1, checked, name, args => do
    match name with
    | "eval" => some <$> runText n checked (" ".intercalate args)
    | "." =>
      match args with
      | [] => return some 0
      | file :: _ => do
        match ← openForReading file with
        | none => refuse
        | some channel => do
          let text ← isolated do
            modifyEnv (·.setChannel 0 (some channel))
            wholeInput []
          some <$> runText n checked (← resume text)
    | "exec" =>
      match args with
      | [] => return some 0
      | name :: args => do
        modifyEnv fun e => { e with traps := [] }
        throw (.exited (← runTool n name args))
    | "kill" => some <$> sendSignal n args
    | "command" =>
      match args with
      | "-v" :: names => do
        let known (s : String) : Run Bool := do
          return (← env).functions.any (·.1 = s) || shellOnly.contains s || (toolName? s).isSome ||
            (simpleBuiltin s []).isSome
        let mut status := 0
        for s in names.take 1 do
          if ← known s then
            let isBuiltin := (simpleBuiltin s []).isSome || shellOnly.contains s ||
              (← env).functions.any (·.1 = s) || s.contains '/'
            let _ ← emit 1 ((if isBuiltin then s else "/usr/bin/" ++ s) ++ "\n")
          else status := 127
        return some status
      | args =>
        match args.dropWhile fun s => s = "-p" || s = "--" with
        | [] => return some 0
        | name :: args => do
          match ← runBuiltin n checked name args with
          | some status => return some status
          | none => some <$> runTool n name args
    | "type" => do
      let mut status := 0
      for s in args do
        if (simpleBuiltin s []).isSome || shellOnly.contains s then
          let _ ← emit 1 (s ++ " is a shell builtin\n")
        else if (toolName? s).isSome then
          let _ ← emit 1 (s ++ " is /usr/bin/" ++ s ++ "\n")
        else
          let _ ← emit 1 (s ++ ": not found\n")
          status := 127
      return some status
    | name =>
      match simpleBuiltin name args with
      | some body => some <$> body
      | none => return none

/-- Carries out a simple command. -/
def runSimple : Nat → Bool → List (String × Word) → List Word → List Redirection → Run Nat
  | 0, _, _, _, _ => throw .endless
  | n + 1, checked, assignments, words, redirections => do
    spend
    modify fun m => { m with expanded := none }
    let mut fields := []
    for w in words do
      fields := fields ++ (← wordFields n w)
    let giveAll : Run Unit := do
      for (name, w) in assignments do
        assign name (← wordText n w)
    let name := fields.headD ""
    let args := fields.tail
    let special := specialCommands.contains name
    let some saved ← redirect n redirections
      | if special then refuse else return 2
    if fields.isEmpty then
      restoreChannels saved
      giveAll
      return (← get).expanded.getD 0
    let body : Run Nat := do
      if special then
        giveAll
        return (← runBuiltin n checked name args).getD 127
      let before ← env
      giveAll
      let names := assignments.map (·.1)
      modifyEnv fun e => { e with exported := names ++ e.exported }
      let undo : Run Unit := modifyEnv fun e =>
        { restoreLocals (names.map fun x => (x, before.valueOf? x)) e with exported := before.exported }
      match before.functions.lookup name with
      | some c => do
        let status ← callFunction n checked c args
        undo
        return status
      | none => do
        match ← runBuiltin n checked name args with
        | some status => do
          -- what a command of the shell has been given stays if it is what it has read
          if name ≠ "read" && name ≠ "local" then undo
          else modifyEnv fun e =>
            { restoreLocals ((names.filter (!args.contains ·)).map fun x => (x, before.valueOf? x)) e with
              exported := before.exported }
          return status
        | none => do
          let status ← runTool n name args
          undo
          if (toolName? name).isNone then
            let reason := if status = 126 then "Permission denied" else "not found"
            let _ ← emit 2 s!"{(← env).name}: 1: {name}: {reason}\n"
          return status
    let status ← body
    if special && name = "exec" then noteClosed else restoreChannels saved
    return status

/-- Carries out a command, with at most so many nested commands, and gives its status. A command
whose status is checked may fail even if failing commands end the shell. -/
def perform : Nat → Bool → Command → Run Nat
  | 0, _, _ => throw .endless
  | n + 1, checked, c => do
    let guarded (status : Nat) : Run Nat := do
      if status ≠ 0 && !checked && (← env).options.contains 'e' then throw (.exited status)
      return status
    let status ← match c with
      | .skip => pure 0
      | .simple assignments words redirections => do
        let status ← runSimple n checked assignments words redirections
        modify fun m => { m with status }
        guarded status
      | .redirected c redirections => do
        match ← redirect n redirections with
        | none => do
          modify fun m => { m with status := 2 }
          guarded 2
        | some saved => do
          let status ← tryCatch (perform n checked c) fun stop => do
            restoreChannels saved
            throw stop
          restoreChannels saved
          pure status
      | .seq first second => do
        let _ ← perform n checked first
        perform n checked second
      | .both first second => do
        let status ← perform n true first
        if status = 0 then perform n checked second else pure status
      | .either first second => do
        let status ← perform n true first
        if status = 0 then pure status else perform n checked second
      | .negated c => do
        let status ← perform n true c
        pure (if status = 0 then 1 else 0)
      | .pipeline stages => do
        let status ← sideBySide (performLast n checked) stages
        modify fun m => { m with status }
        guarded status
      | .background c => beside (performLast n checked c)
      | .subshell c => do
        let status ← resume (← inSubshell id (performLast n checked c))
        modify fun m => { m with status }
        guarded status
      | .cond test yes no => do
        let status ← perform n true test
        if status = 0 then perform n checked yes
        else
          match no with
          | .skip => pure 0
          | no => perform n checked no
      | .loop untilTrue test body => inLoop do
        repeatStep (fun last => do
          let status ← perform n true test
          if (status = 0) = untilTrue then return (false, last)
          return (true, ← perform n checked body)) mostRepetitions 0
      | .forEach name words body => do
        let fields ← match words with
          | none => pure (← env).arguments
          | some words => do
            let mut fields := []
            for w in words do
              fields := fields ++ (← wordFields n w)
            pure fields
        inLoop <| forEachField (fun field => do
          assign name field
          perform n checked body) fields 0
      | .select subject branches => do
        let text ← wordText n subject
        let mut found := none
        for (patterns, body) in branches do
          for w in patterns do
            if found.isNone then
              let items := globOf (Part.charsOf (← expandWord n false w))
              if globMatches items text.toList then found := some body
        match found with
        | some body => perform n checked body
        | none => pure 0
      | .define name body => do
        modifyEnv fun e =>
          { e with functions := (name, body) :: e.functions.filter (·.1 ≠ name) }
        pure 0
    modify fun m => { m with status }
    return status

end

/-- The most nested commands. -/
def mostNested : Nat := 1000

end Run

/-- What a program does. -/
structure Transcript where
  /-- What it prints and when. -/
  printed : List (Nat × String)
  /-- When nothing more can be printed, if there is such a time. -/
  ended : Option Nat
  /-- From when on nothing can be sent to it. Its end takes a moment, in which something still can. -/
  deaf : Option Nat

/-- Whether a program can be started. -/
def isProgram (name : String) : Bool := (Run.toolName? name).isSome

/-- Runs a program on lines that arrive at given times, as long as it matters. All texts are texts of
bytes. -/
def transcript (name : String) (args : List String) (horizon : Nat) (inputs : List (Nat × String)) :
    Transcript :=
  let machine : Machine :=
    { env :=
        { values := Run.startVariables, exported := ["PATH", "HOME", "PWD"]
          descriptors := [(0, .source 0), (1, .sink 0), (2, .nowhere)] }
      sources := #[{ pending := inputs.map fun (time, s) => (time, s ++ "\n"), ended := none }]
      sinks := #[[]]
      horizon := some horizon }
  let (result, m) := (ExceptT.run (Run.runTool Run.mostNested name args)).run machine
  let printed := (m.sinks[0]?.getD []).reverse.mergeSort fun a b => a.1 ≤ b.1
  let jobs := m.jobs.map (·.ended)
  let ended :=
    match result with
    | .ok _ => some m.clock
    | .error .waiting => none
    | .error .endless => none
    | .error _ => some m.clock
  { printed
    ended := jobs.foldl (fun e j => do return max (← e) (← j)) (m.outputClosed.or ended)
    deaf := m.inputClosed.or (ended.map (· + 1)) }

end LikelyInvariants.Shell
