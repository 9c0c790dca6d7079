import LikelyInvariants.Platform.Shell.Arithmetic

/-!
# Conditions

The conditions of the command `test`: comparisons of texts and of numbers, facts about files, and
what can be made of these with "and", "or", "not" and parentheses. How a word is understood depends
on the words after it and, for up to four words, on how many there are.
-/

namespace LikelyInvariants.Shell

/-- What is known of a file. -/
structure FileFacts where
  directory : Bool := false
  special : Bool := false
  executable : Bool := false
  size : Nat := 0

/-- Operators before an operand. -/
def unaryTests : List String :=
  ["-r", "-w", "-x", "-e", "-f", "-d", "-c", "-b", "-p", "-u", "-g", "-k", "-s", "-t", "-z", "-n",
    "-h", "-O", "-G", "-L", "-S"]

/-- Operators between operands. -/
def binaryTests : List String :=
  ["=", "!=", "<", ">", "-eq", "-ne", "-gt", "-ge", "-lt", "-le", "-nt", "-ot", "-ef"]

/-- What a word is understood as. -/
inductive TestWord where
  | finished
  | unary (op : String)
  | binary (op : String)
  | not
  | and
  | or
  | openParen
  | closeParen
  | operand
deriving DecidableEq

/-- What a word is by itself. -/
def TestWord.ofString? (s : String) : Option TestWord :=
  if unaryTests.contains s then some (.unary s)
  else if binaryTests.contains s then some (.binary s)
  else
    match s with
    | "!" => some .not
    | "-a" => some .and
    | "-o" => some .or
    | "(" => some .openParen
    | ")" => some .closeParen
    | _ => none

def TestWord.isBinary : TestWord → Bool
  | binary _ => true
  | _ => false

/-- What the first of some words is understood as. -/
def TestWord.ofWords : List String → TestWord
  | [] => .finished
  | s :: rest =>
    match TestWord.ofString? s with
    | none => .operand
    | some w =>
      let asOperand :=
        match w, rest with
        | .unary _, [] => true
        | .unary _, [_] => false
        | .unary _, t :: _ => (TestWord.ofString? t).any TestWord.isBinary
        | .openParen, [] => true
        | _, _ => false
      if asOperand then .operand else w

/-- The number a word stands for in a comparison. -/
def testNumber? (s : String) : Option Int :=
  let isSpace (c : Char) : Bool := c == ' ' || ('\t' ≤ c && c ≤ '\x0d')
  let decimal (cs : List Char) : Option Nat :=
    if cs.isEmpty then none else Arithmetic.digitsValue? 10 cs
  match ((s.toList.dropWhile isSpace).reverse.dropWhile isSpace).reverse with
  | '-' :: cs => (decimal cs).map fun n => - (n : Int)
  | '+' :: cs => (decimal cs).map fun n => (n : Int)
  | cs => (decimal cs).map fun n => (n : Int)

/-- Whether a file is as an operator says. -/
def fileTest (facts : String → Option FileFacts) (op name : String) : Bool :=
  match facts name with
  | none => false
  | some f =>
    match op with
    | "-f" => !f.directory && !f.special
    | "-d" => f.directory
    | "-c" => f.special
    | "-s" => f.directory || 0 < f.size
    | "-x" => f.directory || f.executable
    | _ => ["-e", "-r", "-w", "-O", "-G"].contains op

/-- Whether an operator holds of an operand. -/
def unaryTest (facts : String → Option FileFacts) (op operand : String) : Option Bool :=
  match op with
  | "-z" => some operand.isEmpty
  | "-n" => some !operand.isEmpty
  | "-t" => (testNumber? operand).map fun _ => false
  | _ => some (fileTest facts op operand)

/-- Whether an operator holds between operands. -/
def binaryTest (op a b : String) : Option Bool :=
  match op with
  | "=" => some (a = b)
  | "!=" => some (a ≠ b)
  | "<" => some (a < b)
  | ">" => some (b < a)
  | "-nt" => some false
  | "-ot" => some false
  | "-ef" => some false
  | _ => do
    let m ← testNumber? a
    let n ← testNumber? b
    match op with
    | "-eq" => return m = n
    | "-ne" => return m ≠ n
    | "-gt" => return m > n
    | "-ge" => return m ≥ n
    | "-lt" => return m < n
    | _ => return m ≤ n

mutual

/-- The value of alternatives; what is left begins with the last word that belongs to them. -/
def readOr (facts : String → Option FileFacts) :
    Nat → TestWord → List String → Option (Bool × List String)
  | 0, _, _ => none
  | n + 1, w, ws => do
    let (first, rest) ← readAnd facts n w ws
    if TestWord.ofWords rest.tail = .or then
      let rest := rest.drop 2
      let (second, rest) ← readOr facts n (TestWord.ofWords rest) rest
      return (first || second, rest)
    else return (first, rest)

/-- The value of conditions that must all hold. -/
def readAnd (facts : String → Option FileFacts) :
    Nat → TestWord → List String → Option (Bool × List String)
  | 0, _, _ => none
  | n + 1, w, ws => do
    let (first, rest) ← readNot facts n w ws
    if TestWord.ofWords rest.tail = .and then
      let rest := rest.drop 2
      let (second, rest) ← readAnd facts n (TestWord.ofWords rest) rest
      return (first && second, rest)
    else return (first, rest)

/-- The value of a condition that may be negated. -/
def readNot (facts : String → Option FileFacts) :
    Nat → TestWord → List String → Option (Bool × List String)
  | 0, _, _ => none
  | n + 1, w, ws =>
    if w = .not then do
      let next := TestWord.ofWords ws.tail
      let (value, rest) ← readNot facts n next (if next = .finished then ws else ws.tail)
      return (!value, rest)
    else readPrimary facts n w ws

/-- The value of a condition without "and", "or" and "not". -/
def readPrimary (facts : String → Option FileFacts) :
    Nat → TestWord → List String → Option (Bool × List String)
  | 0, _, _ => none
  | n + 1, w, ws =>
    match w, ws with
    | .finished, _ => some (false, ws)
    | .openParen, _ => do
      let ws := ws.tail
      let next := TestWord.ofWords ws
      if next = .closeParen then return (false, ws)
      let (value, rest) ← readOr facts n next ws
      if TestWord.ofWords rest.tail = .closeParen then return (value, rest.tail) else none
    | .unary op, _ :: operand :: rest =>
      (unaryTest facts op operand).map (·, operand :: rest)
    | .unary _, _ => none
    | _, a :: rest =>
      match TestWord.ofWords rest, rest with
      | .binary op, _ :: b :: rest => (binaryTest op a b).map (·, b :: rest)
      | .binary _, _ => none
      | _, _ => some (!a.isEmpty, a :: rest)
    | _, [] => some (false, [])

end

/-- The status of the condition that some words state: zero if it holds, one if not, two if the
words do not state one. -/
def testStatus (facts : String → Option FileFacts) : Nat → Bool → List String → Nat
  | 0, _, _ => 2
  | n + 1, negated, ws =>
    let status (value : Bool) : Nat := if value != negated then 0 else 1
    let general (w : TestWord) (ws : List String) : Nat :=
      match readOr facts (8 * ws.length + 16) w ws with
      | some (value, rest) => if rest.length ≤ 1 then status value else 2
      | none => 2
    let short (ws : List String) : Nat :=
      match ws with
      | "(" :: rest =>
        if rest.getLast? = some ")" then
          general (TestWord.ofWords rest.dropLast) rest.dropLast
        else general (TestWord.ofWords ws) ws
      | "!" :: rest => testStatus facts n (!negated) rest
      | _ => general (TestWord.ofWords ws) ws
    match ws with
    | [] => status false
    | [_, op, _] =>
      if (TestWord.ofString? op).any TestWord.isBinary then general .operand ws else short ws
    | [_, _, _, _] => short ws
    | _ => general (TestWord.ofWords ws) ws

end LikelyInvariants.Shell
