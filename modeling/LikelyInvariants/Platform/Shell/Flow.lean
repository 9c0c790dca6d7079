import LikelyInvariants.Platform.Shell.Machine
import LikelyInvariants.Platform.Shell.Reader

/-!
# The flow of control

What is the same whatever the commands do: repeating them, carrying out a script line by line, ending
a shell, and carrying out commands side by side. A command that runs beside others is carried out as
a whole when its turn comes, at the time at which it begins; what it prints is stamped with the time,
so nothing depends on that order.
-/

namespace LikelyInvariants.Shell

namespace Run

/-- The number under which the shell itself is known. -/
def ownNumber : Nat := 4242

/-- Ends the shell because a command makes no sense. -/
def refuse {α : Type} : Run α := throw (.exited 2)

/-- Counts a command; a run with too many, or one that takes too long, is not followed to its end. -/
def spend : Run Unit := do
  let m ← get
  if m.horizon.any (· < m.clock) then throw .endless
  match m.budget with
  | 0 => throw .endless
  | k + 1 => set { m with budget := k }

/-- Repeats a step as long as it wants to be. A step is given the status of the one before, and has
a status itself; it may also start the loop over or leave it. -/
def repeatStep (step : Nat → Run (Bool × Nat)) : Nat → Nat → Run Nat
  | 0, _ => throw .endless
  | k + 1, last => do
    let (goesOn, status) ← tryCatch (step last) fun
      | .loopLeft loops => if loops ≤ 1 then pure (false, 0) else throw (.loopLeft (loops - 1))
      | .loopAgain loops => if loops ≤ 1 then pure (true, 0) else throw (.loopAgain (loops - 1))
      | stop => throw stop
    if goesOn then repeatStep step k status else return status

/-- The most repetitions of a loop. -/
def mostRepetitions : Nat := 1000000

/-- Carries out a loop, whose body may leave it. -/
def inLoop (body : Run Nat) : Run Nat := do
  let loops := (← env).loops
  modifyEnv fun e => { e with loops := loops + 1 }
  let status ← body
  modifyEnv fun e => { e with loops }
  return status

/-- Carries out a step for each of some fields. A step may start the loop over or leave it. -/
def forEachField (step : String → Run Nat) : List String → Nat → Run Nat
  | [], last => return last
  | field :: fields, _ => do
    let (goesOn, status) ← tryCatch (do return (true, ← step field)) fun
      | .loopLeft loops => if loops ≤ 1 then pure (false, 0) else throw (.loopLeft (loops - 1))
      | .loopAgain loops => if loops ≤ 1 then pure (true, 0) else throw (.loopAgain (loops - 1))
      | stop => throw stop
    if goesOn then forEachField step fields status else return status

/-- Carries out the lines of a script, at most so many. A line that cannot be read ends the shell. -/
def forEachPortion (step : Command → Run Nat) : Nat → List Char → Nat → Run Nat
  | 0, _, last => return last
  | k + 1, cs, last => do
    match nextPortion cs with
    | .ended => return last
    | .failed _ => refuse
    | .command c rest => do
      let last ← if (← env).options.contains 'n' then pure last else step c
      forEachPortion step k rest last

/-- Carries out the lines of a script that is read from the input, at most so many. -/
def forEachInputPortion (step : Command → Run Nat) : Nat → List Char → Nat → Run Nat
  | 0, _, _ => throw .endless
  | k + 1, text, last => do
    let portion := nextPortion text
    match portion with
    | .command c rest => forEachInputPortion step k rest (← step c)
    | .failed .malformed => refuse
    | _ => do
      match ← takeLine ((← env).channel? 0) with
      | .line s => forEachInputPortion step k (text ++ s.toList ++ ['\n']) last
      | .last "" => if portion matches .ended then return last else refuse
      | .last s => forEachInputPortion step k (text ++ s.toList ++ ['\n']) last
      | .unreadable => return last

/-- The status with which a shell ends. -/
def endStatus (body : Run Nat) : Run Nat :=
  tryCatch body fun
    | .exited status => pure status
    | .returned status => pure status
    | .loopLeft _ => pure 0
    | .loopAgain _ => pure 0
    | stop => throw stop

/-- Carries out the body of a shell and then what is to be done at its end, which keeps its status
unless it has an end of its own. -/
def toEnd (text : String → Run Nat) (body : Run Nat) : Run Nat := do
  let status ← endStatus body
  match (← env).traps.lookup "EXIT" with
  | none => return status
  | some action => do
    modify fun m => { m with status }
    modifyEnv fun e => { e with traps := [] }
    endStatus (do
      let _ ← text action
      return status)

/-- Carries out the body of a shell, of which nothing is left at the end. -/
def inSubshell (setup : Environment → Environment) (body : Run Nat) : Run (Except Stop Nat) :=
  isolated do
    modifyEnv fun e => { setup e with traps := [], inner := true }
    body

/-- The result of a part of a run, or what has stopped it. -/
def resume {α : Type} : Except Stop α → Run α
  | .ok a => return a
  | .error stop => throw stop

/-- The commands that a command which may print for ever is allowed. -/
def endlessBudget : Nat := 5000

/-- How commands went that were carried out side by side. -/
structure Stages where
  outcomes : List (Except Stop Nat) := []
  /-- When the last of them ended. -/
  ended : Nat

/-- Carries out commands from one on, each reading what the one before it prints. -/
def stagesFrom (step : Command → Run Nat) (start : Nat) :
    List Command → Option Channel → Stages → Run Stages
  | [], _, stages => return stages
  | c :: cs, input, stages => do
    let isLast := cs.isEmpty
    let sink ← if isLast then pure 0 else newSink
    let budget := (← get).budget
    let share := if isLast then budget else min budget endlessBudget
    modify fun m => { m with clock := start, budget := share }
    let setup (e : Environment) : Environment :=
      let e := if stages.outcomes.isEmpty then e else e.setChannel 0 input
      if isLast then e else e.setChannel 1 (some (.sink sink))
    let outcome ← inSubshell setup (step c)
    modify fun m => { m with budget := budget - (share - m.budget) }
    let time := (← get).clock
    let ends := outcome.toBool
    let next ←
      if isLast then pure none
      else do
        let pending ← sinkTexts sink
        some <$> newSource { pending, ended := if ends then some time else none }
    stagesFrom step start cs next
      { outcomes := stages.outcomes ++ [outcome], ended := if ends then max stages.ended time else stages.ended }

/-- Carries out commands side by side. A command that prints for ever ends when nobody reads what it
prints any more. -/
def sideBySide (step : Command → Run Nat) (cs : List Command) : Run Nat := do
  let start := (← get).clock
  let stages ← stagesFrom step start cs none { ended := start }
  modify fun m => { m with clock := stages.ended }
  let blocked := stages.outcomes.filter fun
    | .error .endless => false
    | .error _ => true
    | .ok _ => false
  match blocked, stages.outcomes.getLast? with
  | outcome :: _, _ => resume outcome
  | [], some outcome => resume outcome
  | [], none => return 0

/-- Carries out a command beside those after it. -/
def beside (body : Run Nat) : Run Nat := do
  let start := (← get).clock
  let result ← inSubshell (·.setChannel 0 (some .nowhere)) body
  let stop := (← get).clock
  let number := ownNumber + 1 + (← get).jobs.length
  let job : Job :=
    match result with
    | .ok status => { number, status, ended := some stop }
    | .error _ => { number, status := 0, ended := none }
  modify fun m => { m with clock := start, jobs := job :: m.jobs }
  return 0

/-- Carries out a command for so many milliseconds at most. Without a limit it takes its time. -/
def within (limit : Nat) (body : Run Nat) : Run Nat := do
  let stop := (← get).clock + limit
  let result ← isolated body
  let late := stop < (← get).clock
  match result with
  | .ok status => if !late || limit = 0 then return status
  | .error (.exited status) => if !late || limit = 0 then return status
  | .error why => if limit = 0 then throw why
  modify fun m => { m with
    clock := stop
    sinks := m.sinks.map fun texts => texts.filter (·.1 ≤ stop) }
  return 124

end Run

end LikelyInvariants.Shell
