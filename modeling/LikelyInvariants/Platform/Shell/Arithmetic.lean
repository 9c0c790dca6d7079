import LikelyInvariants.Platform.Shell.Script

/-!
# Arithmetic expressions

Expressions over numbers of 64 bits and variables. Reading an expression gives a tree; its value is
computed against the texts of the variables, some of which it may change.
-/

namespace LikelyInvariants.Shell

inductive Arithmetic where
  | number (n : Int)
  | variable (name : String)
  /-- An operator before an expression. -/
  | unary (op : String) (e : Arithmetic)
  | binary (op : String) (a b : Arithmetic)
  | choice (test yes no : Arithmetic)
  /-- A variable gets a value, or the value of an operator applied to its own and that. -/
  | assign (name : String) (op : Option String) (e : Arithmetic)

namespace Arithmetic

/-- A number as 64 bits hold it. -/
def wrap (n : Int) : Int := Int.bmod n UInt64.size

/-- The value of a digit. -/
def digitValue (c : Char) : Nat :=
  if c.isDigit then c.toNat - '0'.toNat
  else if 'a' ≤ c ∧ c ≤ 'z' then c.toNat - 'a'.toNat + 10
  else if 'A' ≤ c ∧ c ≤ 'Z' then c.toNat - 'A'.toNat + 10
  else 99

/-- The number that digits of a base stand for, if all are such digits. -/
def digitsValue? (base : Nat) (cs : List Char) : Option Nat :=
  if cs.all (digitValue · < base) then some (cs.foldl (fun n c => n * base + digitValue c) 0)
  else none

/-- A number without its sign: with a zero in front it is octal, with `0x` hexadecimal. A number that
is too large stands for the largest there is. -/
def natural? (cs : List Char) : Option Int :=
  let value :=
    match cs with
    | [] => none
    | '0' :: 'x' :: ds => if ds.isEmpty then none else digitsValue? 16 ds
    | '0' :: 'X' :: ds => if ds.isEmpty then none else digitsValue? 16 ds
    | '0' :: ds => digitsValue? 8 ds
    | ds => digitsValue? 10 ds
  value.map fun n => min n Int64.maxValue.toInt

/-- The operators, longer ones before those they begin with. -/
def operators : List String :=
  ["<<=", ">>=", "<<", ">>", "<=", ">=", "==", "!=", "&&", "||", "+=", "-=", "*=", "/=", "%=",
    "&=", "|=", "^=", "<", ">", "=", "!", "&", "|", "^", "+", "-", "*", "/", "%", "~", "?", ":",
    "(", ")"]

inductive Token where
  | number (n : Int)
  | name (s : String)
  | op (s : String)
deriving DecidableEq

/-- The tokens of an expression. -/
def tokens? : Nat → List Char → Option (List Token)
  | 0, _ => none
  | _ + 1, [] => some []
  | n + 1, c :: cs =>
    if c = ' ' ∨ c = '\t' ∨ c = '\n' then tokens? n cs
    else if isNameChar c then
      let word := (c :: cs).takeWhile isNameChar
      let rest := (c :: cs).dropWhile isNameChar
      if c.isDigit then do
        let value ← natural? word
        return .number value :: (← tokens? n rest)
      else (tokens? n rest).map (.name (String.ofList word) :: ·)
    else
      match operators.find? fun op => op.toList.isPrefixOf (c :: cs) with
      | some op => (tokens? n ((c :: cs).drop op.length)).map (.op op :: ·)
      | none => none

/-- How tightly an operator between expressions binds. -/
def precedence? : String → Option Nat
  | "||" => some 1
  | "&&" => some 2
  | "|" => some 3
  | "^" => some 4
  | "&" => some 5
  | "==" => some 6
  | "!=" => some 6
  | "<" => some 7
  | ">" => some 7
  | "<=" => some 7
  | ">=" => some 7
  | "<<" => some 8
  | ">>" => some 8
  | "+" => some 9
  | "-" => some 9
  | "*" => some 10
  | "/" => some 10
  | "%" => some 10
  | _ => none

/-- The operator that an assignment applies first, if a text is an assignment. -/
def assigned? (op : String) : Option (Option String) :=
  if op = "=" then some none
  else if ["+=", "-=", "*=", "/=", "%=", "<<=", ">>=", "&=", "|=", "^="].contains op then
    some (some (String.ofList op.toList.dropLast))
  else none

mutual

/-- Reads an expression that may be an assignment or a choice. -/
def readAny : Nat → List Token → Option (Arithmetic × List Token)
  | 0, _ => none
  | n + 1, ts => do
    let choice : Option (Arithmetic × List Token) := do
      let (test, rest) ← readBinary n 1 ts
      match rest with
      | .op "?" :: rest =>
        let (yes, rest) ← readAny n rest
        match rest with
        | .op ":" :: rest =>
          let (no, rest) ← readAny n rest
          return (.choice test yes no, rest)
        | _ => none
      | _ => return (test, rest)
    match ts with
    | .name x :: .op op :: rest =>
      match assigned? op with
      | some first =>
        let (e, rest) ← readAny n rest
        return (.assign x first e, rest)
      | none => choice
    | _ => choice

/-- Reads operands and operators that bind at least so tightly. -/
def readBinary : Nat → Nat → List Token → Option (Arithmetic × List Token)
  | 0, _, _ => none
  | n + 1, level, ts => do
    let (first, rest) ← readUnary n ts
    readMore n level first rest

/-- Reads what follows a first operand. -/
def readMore : Nat → Nat → Arithmetic → List Token → Option (Arithmetic × List Token)
  | 0, _, _, _ => none
  | n + 1, level, first, ts =>
    match ts with
    | .op op :: rest =>
      match precedence? op with
      | some p =>
        if p < level then some (first, ts)
        else do
          let (second, rest) ← readBinary n (p + 1) rest
          readMore n level (.binary op first second) rest
      | none => some (first, ts)
    | _ => some (first, ts)

/-- Reads an operand. -/
def readUnary : Nat → List Token → Option (Arithmetic × List Token)
  | 0, _ => none
  | n + 1, ts =>
    match ts with
    | .number k :: rest => some (.number k, rest)
    | .name x :: rest => some (.variable x, rest)
    | .op "(" :: rest => do
      let (e, rest) ← readAny n rest
      match rest with
      | .op ")" :: rest => return (e, rest)
      | _ => none
    | .op op :: rest =>
      if ["+", "-", "!", "~"].contains op then
        (readUnary n rest).map fun (e, rest) => (.unary op e, rest)
      else none
    | _ => none

end

/-- The expression a text stands for; an empty text stands for zero. -/
def ofString? (s : String) : Option Arithmetic := do
  let cs := s.toList
  let ts ← tokens? (cs.length + 1) cs
  if ts.isEmpty then return .number 0
  match ← readAny (8 * ts.length + 8) ts with
  | (e, []) => return e
  | _ => none

/-- The value of the text of a variable; an empty text counts as zero. -/
def textValue? (s : String) : Option Int :=
  let isSpace (c : Char) : Bool := c == ' ' || ('\t' ≤ c && c ≤ '\x0d')
  match (s.toList.dropWhile isSpace).reverse.dropWhile isSpace |>.reverse with
  | [] => some 0
  | '-' :: cs => (natural? cs).map (- ·)
  | '+' :: cs => natural? cs
  | cs => natural? cs

def ofBool (b : Bool) : Int := if b then 1 else 0

/-- The value of an operator between two numbers, if it has one. -/
def combine? (op : String) (a b : Int) : Option Int :=
  match op with
  | "+" => some (wrap (a + b))
  | "-" => some (wrap (a - b))
  | "*" => some (wrap (a * b))
  | "/" => if b = 0 then none else some (wrap (Int.tdiv a b))
  | "%" => if b = 0 then none else some (Int.tmod a b)
  | "<<" => some (wrap (a <<< (b.emod 64).toNat))
  | ">>" => some (a >>> (b.emod 64).toNat)
  | "<" => some (ofBool (a < b))
  | ">" => some (ofBool (b < a))
  | "<=" => some (ofBool (a ≤ b))
  | ">=" => some (ofBool (b ≤ a))
  | "==" => some (ofBool (a = b))
  | "!=" => some (ofBool (a ≠ b))
  | "&" => some ((Int64.ofInt a &&& Int64.ofInt b).toInt)
  | "|" => some ((Int64.ofInt a ||| Int64.ofInt b).toInt)
  | "^" => some ((Int64.ofInt a ^^^ Int64.ofInt b).toInt)
  | _ => none

/-- What variables hold. -/
abbrev Values : Type := List (String × String)

def valueOf? (values : Values) (name : String) : Option Int :=
  textValue? ((values.lookup name).getD "")

/-- The value of an expression and what the variables hold afterwards. -/
def eval? (values : Values) : Arithmetic → Option (Int × Values)
  | number n => some (n, values)
  | .variable x => (valueOf? values x).map (·, values)
  | unary op e => do
    let (n, values) ← eval? values e
    match op with
    | "-" => return (wrap (-n), values)
    | "!" => return (ofBool (n = 0), values)
    | "~" => return (-n - 1, values)
    | _ => return (n, values)
  | binary op a b => do
    let (m, values) ← eval? values a
    if op = "&&" then
      if m = 0 then return (0, values)
      let (n, values) ← eval? values b
      return (ofBool (n ≠ 0), values)
    if op = "||" then
      if m ≠ 0 then return (1, values)
      let (n, values) ← eval? values b
      return (ofBool (n ≠ 0), values)
    let (n, values) ← eval? values b
    return (← combine? op m n, values)
  | choice test yes no => do
    let (n, values) ← eval? values test
    if n ≠ 0 then eval? values yes else eval? values no
  | assign x op e => do
    let (n, values) ← eval? values e
    let n ← match op with
      | none => some n
      | some op => combine? op (← valueOf? values x) n
    return (n, (x, toString n) :: values)

end Arithmetic

end LikelyInvariants.Shell
