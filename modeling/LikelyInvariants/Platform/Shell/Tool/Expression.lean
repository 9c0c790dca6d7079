import LikelyInvariants.Platform.Shell.Regex
import LikelyInvariants.Platform.Shell.Tool

/-!
# Expressions of words

The tool that prints the value of an expression whose parts are words: sums, comparisons and what a
regular expression matches at the beginning of a text.
-/

namespace LikelyInvariants.Shell.WordExpression

/-- The number a text stands for. -/
def integer? (s : String) : Option Int :=
  match s.toList with
  | '-' :: cs => if cs.isEmpty then none else digits cs |>.map fun n => - (n : Int)
  | cs => if cs.isEmpty then none else digits cs |>.map fun n => (n : Int)
where
  /-- The number that decimal digits stand for. -/
  digits (cs : List Char) : Option Nat :=
    if cs.all Char.isDigit then some (cs.foldl (fun n c => n * 10 + (c.toNat - '0'.toNat)) 0)
    else none

/-- Whether a value counts as absent. -/
def isNull (s : String) : Bool :=
  s.isEmpty || (integer? s = some 0 && s.toList.all fun c => c = '0' || c = '-')

def ofBool (b : Bool) : String := if b then "1" else "0"

/-- What a regular expression matches at the beginning of a text: its first group if it has one, and
how much it matches otherwise. -/
def matched? (s pattern : String) : Option String := do
  let r ← Regex.ofString? .basic pattern
  let hasGroup := (pattern.splitOn "\\(").length ≠ 1
  match Regex.longest? (r.ends false [Regex.startOf s]) with
  | some p =>
    if hasGroup then return String.ofList ((p.groups.lookup 1).getD []) else return toString p.index
  | none => return if hasGroup then "" else "0"

/-- The value of an operator. -/
def combine? (op a b : String) : Option String :=
  let numbers (f : Int → Int → Option Int) : Option String := do
    return toString (← f (← integer? a) (← integer? b))
  let order : Ordering :=
    match integer? a, integer? b with
    | some m, some n => compare m n
    | _, _ => compare a b
  match op with
  | "|" => some (if !isNull a then a else if !isNull b then b else "0")
  | "&" => some (if isNull a || isNull b then "0" else a)
  | "<" => some (ofBool (order = .lt))
  | "<=" => some (ofBool (order ≠ .gt))
  | "=" => some (ofBool (order = .eq))
  | "==" => some (ofBool (order = .eq))
  | "!=" => some (ofBool (order ≠ .eq))
  | ">=" => some (ofBool (order ≠ .lt))
  | ">" => some (ofBool (order = .gt))
  | "+" => numbers fun m n => some (m + n)
  | "-" => numbers fun m n => some (m - n)
  | "*" => numbers fun m n => some (m * n)
  | "/" => numbers fun m n => if n = 0 then none else some (Int.tdiv m n)
  | "%" => numbers fun m n => if n = 0 then none else some (Int.tmod m n)
  | ":" => matched? a b
  | _ => none

/-- How tightly an operator binds. -/
def level? (op : String) : Option Nat :=
  if op = "|" then some 1
  else if op = "&" then some 2
  else if ["<", "<=", "=", "==", "!=", ">=", ">"].contains op then some 3
  else if ["+", "-"].contains op then some 4
  else if ["*", "/", "%"].contains op then some 5
  else if op = ":" then some 6
  else none

mutual

/-- The value of operands and of operators that bind at least so tightly. -/
def read : Nat → Nat → List String → Option (String × List String)
  | 0, _, _ => none
  | n + 1, level, ws => do
    let (a, rest) ← readOperand n ws
    readMore n level a rest

/-- The value of what begins with a value. -/
def readMore : Nat → Nat → String → List String → Option (String × List String)
  | 0, _, _, _ => none
  | n + 1, level, a, ws =>
    match ws with
    | op :: rest =>
      match level? op with
      | some l =>
        if l < level then some (a, ws)
        else do
          let (b, rest) ← read n (l + 1) rest
          readMore n level (← combine? op a b) rest
      | none => some (a, ws)
    | [] => some (a, [])

/-- The value of an operand. -/
def readOperand : Nat → List String → Option (String × List String)
  | 0, _ => none
  | n + 1, ws =>
    match ws with
    | [] => none
    | "(" :: rest => do
      match ← read n 1 rest with
      | (a, ")" :: rest) => return (a, rest)
      | _ => none
    | "+" :: s :: rest => some (s, rest)
    | "length" :: rest@(_ :: _) => do
      let (s, rest) ← readOperand n rest
      return (toString s.length, rest)
    | "match" :: rest@(_ :: _) => do
      let (s, rest) ← readOperand n rest
      let (pattern, rest) ← readOperand n rest
      return (← matched? s pattern, rest)
    | "index" :: rest@(_ :: _) => do
      let (s, rest) ← readOperand n rest
      let (chars, rest) ← readOperand n rest
      let place := s.toList.findIdx? chars.toList.contains
      return (toString ((place.map (· + 1)).getD 0), rest)
    | "substr" :: rest@(_ :: _) => do
      let (s, rest) ← readOperand n rest
      let (start, rest) ← readOperand n rest
      let (count, rest) ← readOperand n rest
      match integer? start, integer? count with
      | some start, some count =>
        if start ≤ 0 ∨ count ≤ 0 then return ("", rest)
        else return (String.ofList ((s.toList.drop (start.toNat - 1)).take count.toNat), rest)
      | _, _ => return ("", rest)
    | s :: rest => some (s, rest)

end

/-- The value of the expression that some words make, if they make one. -/
def value? (ws : List String) : Option String := do
  match ← read (8 * ws.length + 8) 1 ws with
  | (a, []) => return a
  | _ => none

/-- Prints the value of an expression. -/
def print (ws : List String) : Run Nat := do
  match value? ws with
  | none => return 2
  | some s =>
    let _ ← Run.emit 1 (s ++ "\n")
    return if isNull s then 1 else 0

end LikelyInvariants.Shell.WordExpression
