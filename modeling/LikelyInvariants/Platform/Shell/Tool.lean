import LikelyInvariants.Platform.Shell.Machine

/-!
# Tools for texts

What tools have in common: they take options and the names of files, read lines and print others.
What a tool prints is held back until it ends or there is much of it, unless it is told to print
each line at once.
-/

namespace LikelyInvariants.Shell

/-- The options and the other arguments of a tool. -/
structure Options where
  /-- Letters with their values. -/
  given : List (Char × String) := []
  operands : List String := []

namespace Options

def has (o : Options) (c : Char) : Bool := o.given.any (·.1 = c)

/-- The value of an option that was given last. -/
def value? (o : Options) (c : Char) : Option String :=
  (o.given.filter (·.1 = c)).getLast?.map (·.2)

def values (o : Options) (c : Char) : List String := (o.given.filter (·.1 = c)).map (·.2)

/-- Which options a tool knows. -/
structure Known where
  flags : List Char := []
  /-- Options with a value. -/
  valued : List Char := []
  long : List (String × Char) := []
  /-- Whether options may stand after other arguments. -/
  mixed : Bool := true

/-- The letters of an argument, of which the last may take a value from what follows. -/
def readLetters (known : Known) (rest : List String) :
    List Char → Option (List (Char × String) × List String)
  | [] => some ([], rest)
  | c :: cs =>
    if known.flags.contains c then
      (readLetters known rest cs).map fun (given, rest) => ((c, "") :: given, rest)
    else if known.valued.contains c then
      match cs, rest with
      | [], value :: rest => some ([(c, value)], rest)
      | [], [] => none
      | cs, rest => some ([(c, String.ofList cs)], rest)
    else none

/-- The options and other arguments among some words, if all options are known. -/
def read? (known : Known) : Nat → List String → Option Options
  | 0, _ => none
  | _ + 1, [] => some {}
  | _ + 1, "--" :: rest => some { operands := rest }
  | n + 1, s :: rest =>
    match s.toList with
    | '-' :: '-' :: cs => do
      let (name, value) := cs.span (· ≠ '=')
      let c ← known.long.lookup (String.ofList name)
      let more (value : String) (rest : List String) : Option Options :=
        (read? known n rest).map fun o => { o with given := (c, value) :: o.given }
      if known.valued.contains c then
        match value, rest with
        | _ :: value, rest => more (String.ofList value) rest
        | [], value :: rest => more value rest
        | [], [] => none
      else more "" rest
    | '-' :: c :: cs => do
      let (given, rest) ← readLetters known rest (c :: cs)
      (read? known n rest).map fun o => { o with given := given ++ o.given }
    | _ =>
      if known.mixed then
        (read? known n rest).map fun o => { o with operands := s :: o.operands }
      else some { operands := s :: rest }

end Options

/-- A tool that goes through lines with a state. -/
structure Filter (σ : Type) where
  start : σ
  /-- What a line does, given whether it has an end: it changes the state, prints a text and may be
  the last to be read. -/
  line : σ → Bool → String → σ × String × Bool
  /-- What is printed at the end, and the status. -/
  finish : σ → String × Nat

/-- How much of what a tool prints is held back. -/
def bufferSize : Nat := 4096

/-- What is held back and what is not, once there is more of it. -/
def overflow (atOnce : Bool) (held : String) : String × String :=
  if atOnce then (held, "")
  else if held.length < bufferSize then ("", held)
  else
    let whole := held.length / bufferSize * bufferSize
    (String.ofList (held.toList.take whole), String.ofList (held.toList.drop whole))

namespace Run

/-- Lets a filter go through the lines of a channel. The result tells whether it goes on. -/
def filterChannel {σ : Type} (f : Filter σ) (atOnce : Bool) (c : Option Channel) :
    Nat → σ → String → Run (σ × String × Bool)
  | 0, _, _ => throw .endless
  | n + 1, s, held => do
    let take (complete : Bool) (line : String) : Run (σ × String × Bool) := do
      let (s, out, stops) := f.line s complete line
      let (out, held) := overflow atOnce (held ++ out)
      let _ ← emit 1 out
      return (s, held, !stops)
    match ← takeLine c with
    | .line line => do
      let (s, held, goesOn) ← take true line
      if goesOn then filterChannel f atOnce c n s held else return (s, held, false)
    | .last "" => return (s, held, true)
    | .last line => take false line
    | .unreadable => return (s, held, true)

/-- The most lines a tool reads before it counts as endless. -/
def mostLines : Nat := 100000

/-- Lets a filter go through files, or through the input if none is named. -/
def filterFiles {σ : Type} (f : Filter σ) (atOnce : Bool) (names : List String) : Run Nat := do
  let atOnce := atOnce || (← env).lineBuffered
  let rec go : List String → σ → String → Bool → Run (σ × String × Bool)
    | [], s, held, found => return (s, held, found)
    | name :: names, s, held, found => do
      let channel ← if name = "-" then pure ((← env).channel? 0) else openForReading name
      match channel with
      | none => go names s held false
      | some c => do
        let (s, held, goesOn) ← filterChannel f atOnce (some c) mostLines s held
        if goesOn then go names s held found else return (s, held, found)
  let (s, held, found) ← go (if names.isEmpty then ["-"] else names) f.start "" true
  let (out, status) := f.finish s
  let _ ← emit 1 (held ++ out)
  return if found then status else max status 1

/-- All that the input has, or that files have. -/
def wholeInput (names : List String) : Run String := do
  let rec go (c : Option Channel) : Nat → String → Run String
    | 0, _ => throw .endless
    | n + 1, text => do
      match ← takeText c with
      | some s => go c n (text ++ s)
      | none => return text
  let mut text := ""
  for name in (if names.isEmpty then ["-"] else names) do
    let channel ← if name = "-" then pure ((← env).channel? 0) else openForReading name
    match channel with
    | some c => text := text ++ (← go (some c) mostLines "")
    | none => pure ()
  return text

end Run

/-- A line with its end, if it has one. -/
def withEnd (complete : Bool) (line : String) : String := if complete then line ++ "\n" else line

/-- A filter that prints something for each line. -/
def Filter.each (f : String → String) : Filter Unit where
  start := ()
  line _ complete line := ((), withEnd complete (f line), false)
  finish _ := ("", 0)

end LikelyInvariants.Shell
