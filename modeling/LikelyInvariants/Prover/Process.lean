import LikelyInvariants.Config
import LikelyInvariants.Prover.Bridge
import LikelyInvariants.Platform.Shell.Run
import LikelyInvariants.Platform.Character.Class
import LikelyInvariants.Text.Occurrence

/-!
# Provers that are programs

A prover that is a program reads commands, each on a line of its own, and prints its answers. A
query is answered by the next line that says `Valid.` or `Invalid.` at its end; other lines, such as
a counterexample, are passed over. An answer that has not come when the time is up counts as a
timeout, and a line that complains about the input ends the conversation.

The programs that are known here are shells, with the scripts they are given, and common tools for
texts. Nothing is run for them: what a program prints is computed from the lines it has been sent. A
program that is not known cannot be started.
-/

namespace LikelyInvariants

/-- A text without the prompts at its beginning, each an angle bracket and a tabulator. -/
def dropPrompts : List Char → List Char
  | '>' :: '\t' :: cs => dropPrompts cs
  | cs => cs

/-- A text without white space at its beginning and at its end. -/
def trimSpace (s : String) : String :=
  let trimmed := s.toList.dropWhile Character.isBlank
  String.ofList (trimmed.reverse.dropWhile Character.isBlank).reverse

/-- What a line says to a query, if it is an answer. -/
def verdict? (line : String) : Option ProverReply :=
  let line := trimSpace (String.ofList (dropPrompts line.toList))
  if endsWith line "Invalid." then some (.ok .invalid)
  else if endsWith line "Valid." then some (.ok .valid)
  else if beginsWith line "Bad input" then some (.error (.protocol line))
  else none

/-- What a line says to a query if it is one: it is answered, or the line is no text. -/
def lineVerdict? (line : String) : Option ProverReply :=
  match Shell.ofBytes? line with
  | some line => verdict? line
  | none => some (.error (.io "stream did not contain valid UTF-8"))

/-- The lines of a text, each with the time at which it was finished. A last line without an end is
finished when the program ends. -/
def timedLines (ended : Option Nat) : String → Nat → List (Nat × String) → List (Nat × String)
  | line, begun, [] =>
    match ended with
    | some time => if line.isEmpty then [] else [(max begun time, line)]
    | none => []
  | line, _, (time, text) :: texts =>
    match text.splitOn "\n" with
    | [] => timedLines ended line time texts
    | first :: rest =>
      match rest.getLast? with
      | none => timedLines ended (line ++ first) time texts
      | some last =>
        ((line ++ first) :: rest.dropLast).map (time, ·) ++ timedLines ended last time texts

/-- A program that was called. -/
structure Program where
  command : String
  args : List String
  /-- How many milliseconds an answer may take. -/
  timeout : Nat

/-- A conversation with a program: the lines that were sent, each with the number of answers that
came before it. In a conversation that goes on, all queries were answered. -/
structure Conversation where
  lines : List (Nat × String) := []
  answers : Nat := 0

namespace Conversation

/-- The conversation after a text was sent. -/
def send (c : Conversation) (text : String) : Conversation :=
  let lines := (text.toList.splitOnP (· = '\n')).map String.ofList
  { c with lines := c.lines ++ lines.map (c.answers, ·) }

/-- The conversation after a request, if it is a query after its answer. -/
def add (c : Conversation) : ProverCommand → Conversation
  | .assume f => c.send s!"(BG_PUSH {f})"
  | .undo => c.send "(BG_POP)"
  | .check f => let c := c.send f; { c with answers := c.answers + 1 }

/-- A conversation begins by turning the prompt off. -/
def start : Conversation := send {} "(PROMPT_OFF)"

/-- The conversation after some events, the last first. -/
def ofHistory : List ProverEvent → Conversation
  | [] => start
  | .launched _ :: _ => start
  | .requested c _ :: earlier => (ofHistory earlier).add c

/-- What a program does. -/
structure Behaviour where
  /-- Its answers and when they came. -/
  verdicts : List (Nat × ProverReply)
  /-- How many of them are lines with an end. -/
  complete : Nat
  ended : Option Nat
  /-- When it stops taking what is sent. -/
  deaf : Option Nat

/-- What a program does if its answers come at some times. -/
def behaviour (p : Program) (c : Conversation) (times : List Nat) : Behaviour :=
  let sent (answers : Nat) : Nat := if answers = 0 then 0 else times[answers - 1]?.getD 0
  let inputs := c.lines.map fun (answers, line) => (sent answers, Shell.bytesOf line)
  let horizon := (c.answers + 2) * (p.timeout + 1)
  let run := Shell.transcript (Shell.bytesOf p.command) (p.args.map Shell.bytesOf) horizon inputs
  let verdicts (ended : Option Nat) := (timedLines ended "" 0 run.printed).filterMap
    fun (time, line) => (lineVerdict? line).map (time, ·)
  { verdicts := verdicts run.ended
    complete := (verdicts none).length
    ended := run.ended
    deaf := run.deaf }

/-- The times at which so many answers are there, each not before the one it follows. -/
def answerTimes (answers : Nat) (b : Behaviour) : List Nat :=
  ((b.verdicts.take answers).map (·.1)).scanl max 0 |>.drop 1

/-- What a program does in a conversation. When lines are sent depends on when answers come, and the
other way round; but an answer depends on earlier lines alone, so that each attempt settles one more
time at least. -/
def settle (p : Program) (c : Conversation) : Nat → List Nat → Behaviour × List Nat
  | 0, times => (c.behaviour p times, times)
  | n + 1, times =>
    let b := c.behaviour p times
    let next := answerTimes c.answers b
    if next = times then (b, times) else settle p c n next

/-- What a program does in a conversation, and the time of the last answer. -/
def settled (p : Program) (c : Conversation) : Behaviour × Nat :=
  let (b, times) := c.settle p c.answers (List.replicate c.answers 0)
  (b, times.getLast?.getD 0)

/-- Whether a program takes nothing more when the last answer has come. It does not if that answer
was finished only by its end. -/
def isOver (p : Program) (c : Conversation) : Bool :=
  let (b, now) := c.settled p
  b.deaf.any (· ≤ now) || b.complete < c.answers

/-- The reply to a request in a conversation. A program that has ended does not take what is sent. -/
def reply (p : Program) (c : Conversation) (request : ProverCommand) : ProverReply :=
  let broken : ProverReply := .error (.io "Broken pipe (os error 32)")
  match request with
  | .check f =>
    let (b, now) := (c.send f).settled p
    let late (time : Nat) : Bool := now + p.timeout ≤ time
    let timeout : ProverReply := .error (.timeout p.timeout)
    if b.deaf.isSome && c.isOver p then broken
    else
      match b.verdicts[c.answers]?, b.ended with
      | some (time, reply), _ => if late (max now time) then timeout else reply
      | none, some time => if late time then timeout else .error (.protocol "prover exited")
      | none, none => timeout
  | _ => if c.isOver p then broken else .ok .ack

end Conversation

/-- Whether a program can be started: it is known, and no text it is given contains the character that
ends texts. -/
def Program.canStart (p : Program) : Bool :=
  Shell.isProgram p.command && p.args.all (!·.toList.contains '\x00')

/-- The prover that is a program. -/
def Prover.ofProgram (p : Program) : Prover :=
  if p.canStart then
    { launch := fun _ => none
      answer := fun history c => (Conversation.ofHistory history).reply p c }
  else
    let failure := ProverError.unavailable s!"{p.command}: No such file or directory (os error 2)"
    { launch := fun _ => some failure, answer := fun _ _ => .error failure }

/-- The bridge to the prover a configuration names. -/
def Bridge.ofConfig (c : ProverConfig) : Bridge :=
  if c.enabled then
    .new (Prover.ofProgram { command := c.command, args := c.args, timeout := c.timeout }) c.maxStarts
  else .disabled

end LikelyInvariants
