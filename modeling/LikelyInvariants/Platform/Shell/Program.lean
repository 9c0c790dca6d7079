import LikelyInvariants.Platform.Shell.Builtin
import LikelyInvariants.Platform.Shell.Tool.Edit
import LikelyInvariants.Platform.Shell.Tool.Expression
import LikelyInvariants.Platform.Shell.Tool.Grep
import LikelyInvariants.Platform.Shell.Tool.Lines
import LikelyInvariants.Platform.SystemFile

/-!
# Programs

The programs that are known by name. Of some only so much is known that they read everything and say
nothing.
-/

namespace LikelyInvariants.Shell

namespace Run

/-- Tools that run no other commands. -/
def simpleTool (name : String) (args : List String) : Option (Run Nat) :=
  match name with
  | "cat" => some (copyFiles (args.filter (· ≠ "-u")))
  | "tee" => some (teeFiles (args.contains "-a") (args.filter fun s => s ≠ "-a" ∧ s ≠ "-i"))
  | "grep" => some (searchLines (some .basic) args)
  | "egrep" => some (searchLines (some .extended) args)
  | "fgrep" => some (searchLines none args)
  | "sed" => some (editLines args)
  | "head" => some (printFirst args)
  | "tail" => some (printLast args)
  | "cut" => some (cutLines args)
  | "tr" => some (translate args)
  | "wc" => some (countAll args)
  | "sort" => some (sortLines args)
  | "uniq" => some (uniqueLines args)
  | "nl" => some (filterFiles numberFilter false args)
  | "rev" => some (filterFiles (Filter.each fun s => String.ofList s.toList.reverse) true args)
  | "tac" => some (filterFiles (collectFilter List.reverse) false args)
  | "seq" => some (printSequence args)
  | "expr" => some (WordExpression.print args)
  | "sleep" => some (sleep args)
  | "yes" => some do
    let line := (if args.isEmpty then "y" else " ".intercalate args) ++ "\n"
    let _ ← emit 1 (String.join (List.replicate 2000 line))
    throw .endless
  | "basename" => some do
    let base := ((args.headD "").splitOn "/").getLast?.getD ""
    let suffix := (args[1]?).getD ""
    let base :=
      if !suffix.isEmpty && base ≠ suffix && base.endsWith suffix then
        String.ofList (base.toList.take (base.length - suffix.length))
      else base
    printOut (base ++ "\n") 0
  | "dirname" => some do
    match ((args.headD "").splitOn "/").dropLast with
    | [] => printOut ".\n" 0
    | [""] => printOut "/\n" 0
    | parts => printOut ("/".intercalate parts ++ "\n") 0
  | "touch" => some do
    for name in args do
      let _ ← openForWriting name true
    return 0
  | "rm" => some do
    let names := args.filter (!·.startsWith "-")
    let files := (← get).files
    modify fun m => { m with files := m.files.filter (!names.contains ·.1) }
    return if args.any (·.startsWith "-f") || names.all fun s => files.any (·.1 = s) then 0 else 1
  | "mkdir" => some (return 0)
  | "chmod" => some (return 0)
  | "sync" => some (return 0)
  | "stty" => some (return 1)
  | "ls" => some (return 0)
  | "date" => some (printOut "0\n" 0)
  | "id" => some (printOut "0\n" 0)
  | "uname" => some (printOut "Linux\n" 0)
  | "hostname" => some (printOut "localhost\n" 0)
  | "awk" => some do
    let _ ← wholeInput []
    return 0
  | "perl" => some do
    let _ ← wholeInput []
    return 0
  | "dd" => some do
    if args.any (·.startsWith "of=") then
      let _ ← wholeInput []
      return 0
    else copyFiles []
  | _ => none

/-- Tools that run other commands. -/
def runners : List String := ["env", "nice", "nohup", "setsid", "timeout", "stdbuf", "xargs", "sh", "dash",
  "bash"]

/-- Commands of the shell that are tools as well. -/
def toolBuiltins : List String := ["true", "false", "echo", "printf", "test", "[", "kill", "pwd"]

/-- The name of a tool, with the directory it is in or without. -/
def toolName? (name : String) : Option String :=
  let candidate :=
    if name.contains '/' then
      match SystemFile.atPath name with
      | .ok (names, .program) => names.getLast?
      | _ => none
    else some name
  candidate.filter fun s =>
    (simpleTool s []).isSome || runners.contains s || toolBuiltins.contains s

/-- The status of a command that is no tool: what is there may be no program. -/
def startFailure (m : Machine) (name : String) : Nat :=
  if !name.contains '/' then 127
  else if (m.files.lookup (Run.plainName name)).isSome then 126
  else
    match SystemFile.atPath name with
    | .ok _ => 126
    | .error _ => 127

/-- What the environment of a program has at first. -/
def startVariables : List (String × String) :=
  [("IFS", defaultSeparators), ("PATH", "/usr/local/sbin:/usr/local/bin:/usr/sbin:/usr/bin:/sbin:/bin"),
    ("HOME", "/root"), ("PWD", "/"), ("PPID", "4241"), ("PS1", "# "), ("PS2", "> "), ("PS4", "+ "), ("OPTIND", "1")]

/-- How a shell was called. -/
structure Invocation where
  options : List Char := []
  /-- The script, if it is an argument. -/
  script : Option String := none
  /-- Whether the script is read from the input, whatever the arguments are. -/
  fromInput : Bool := false
  name : Option String := none
  arguments : List String := []

/-- Reads the arguments of a shell, of which the letters were read so far. -/
def invocation? (letters : List Char) : List String → Option Invocation
  | s :: rest =>
    match s.toList with
    | ['-'] => finish rest
    | ['-', '-'] => finish rest
    | ['-', 'o'] =>
      match rest with
      | name :: rest => do
        let c ← setOptions.letter? name
        invocation? (c :: letters) rest
      | [] => none
    | '-' :: cs =>
      if cs.all fun c => setOptions.known c || ['c', 's', 'l'].contains c then
        invocation? (cs ++ letters) rest
      else none
    | '+' :: cs =>
      if cs.all setOptions.known then invocation? (letters.filter (!cs.contains ·)) rest else none
    | _ => finish (s :: rest)
  | [] => finish []
where
  /-- What follows the options. -/
  finish (operands : List String) : Option Invocation :=
    let options := letters.filter setOptions.known
    if letters.contains 'c' then
      match operands with
      | [] => none
      | script :: operands =>
        some { options, script := some script, name := operands.head?, arguments := operands.tail }
    else if letters.contains 's' then
      some { options := options ++ ['s'], fromInput := true, arguments := operands }
    else
      match operands with
      | [] => some { options := options ++ ['s'], fromInput := true }
      | name :: arguments => some { options, name := some name, arguments }

end Run

end LikelyInvariants.Shell
