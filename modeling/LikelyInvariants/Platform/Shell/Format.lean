import LikelyInvariants.Platform.Shell.Arithmetic

/-!
# Formatted texts

What `echo` and `printf` print. Backslashes name control characters or bytes by their numbers, and a
format has directives that take an argument each. A format starts over while arguments are left.
-/

namespace LikelyInvariants.Shell

/-- What a backslash and a character stand for, if anything. -/
def controlChar? : Char → Option Char
  | '\\' => some '\\'
  | 'a' => some '\x07'
  | 'b' => some '\x08'
  | 'e' => some '\x1b'
  | 'f' => some '\x0c'
  | 'n' => some '\n'
  | 'r' => some '\x0d'
  | 't' => some '\t'
  | 'v' => some '\x0b'
  | _ => none

def isOctal (c : Char) : Bool := '0' ≤ c && c ≤ '7'

/-- The octal digits at the beginning, at most three. -/
def octalDigits (cs : List Char) : List Char := (cs.take 3).takeWhile isOctal

/-- The byte that octal digits stand for. -/
def octalByte (cs : List Char) : Char :=
  Char.ofNat (cs.foldl (fun n c => n * 8 + (c.toNat - '0'.toNat)) 0 % 256)

/-- A text with its backslashes carried out, and whether one of them ends all output. -/
def unescape : Nat → List Char → List Char × Bool
  | 0, _ => ([], false)
  | _ + 1, [] => ([], false)
  | n + 1, '\\' :: c :: cs =>
    let andThen (out : List Char) (rest : List Char) :=
      let (more, ended) := unescape n rest
      (out ++ more, ended)
    if c = 'c' then ([], true)
    else if c = '0' then
      let digits := octalDigits cs
      andThen [octalByte digits] (cs.drop digits.length)
    else if isOctal c then
      let digits := octalDigits (c :: cs)
      andThen [octalByte digits] ((c :: cs).drop digits.length)
    else
      match controlChar? c with
      | some d => andThen [d] cs
      | none => andThen ['\\'] (c :: cs)
  | n + 1, c :: cs =>
    let (more, ended) := unescape n cs
    (c :: more, ended)

/-- What `echo` prints. -/
def echoed (args : List String) : String :=
  let (args, line) :=
    match args with
    | "-n" :: args => (args, false)
    | args => (args, true)
  let text := " ".intercalate args
  let (out, ended) := unescape (text.length + 1) text.toList
  String.ofList (if line && !ended then out ++ ['\n'] else out)

/-- What `echo` prints where backslashes have a meaning only if that is asked for. -/
def plainlyEchoed : Bool → Bool → List String → String
  | _, escapes, "-n" :: args => plainlyEchoed false escapes args
  | line, _, "-e" :: args => plainlyEchoed line true args
  | line, _, "-E" :: args => plainlyEchoed line false args
  | _, _, "-ne" :: args => plainlyEchoed false true args
  | _, _, "-en" :: args => plainlyEchoed false true args
  | line, escapes, args =>
    let text := " ".intercalate args
    if escapes then
      let (out, ended) := unescape (text.length + 1) text.toList
      String.ofList (if line && !ended then out ++ ['\n'] else out)
    else if line then text ++ "\n"
    else text

/-- How a directive lays out what it prints. -/
structure Layout where
  left : Bool := false
  plus : Bool := false
  blank : Bool := false
  alternate : Bool := false
  zeros : Bool := false
  width : Nat := 0
  precision : Option Nat := none

namespace Layout

/-- A text filled up to the width. -/
def fill (l : Layout) (cs : List Char) : List Char :=
  let blanks := List.replicate (l.width - cs.length) ' '
  if l.left then cs ++ blanks else blanks ++ cs

/-- A sign and digits filled up to the width. -/
def fillNumber (l : Layout) (sign digits : List Char) : List Char :=
  let digits :=
    match l.precision with
    | some p => List.replicate (p - digits.length) '0' ++ digits
    | none =>
      if l.zeros && !l.left then
        List.replicate (l.width - sign.length - digits.length) '0' ++ digits
      else digits
  l.fill (sign ++ digits)

end Layout

/-- The number at the beginning of an argument, and whether the argument is a number. -/
def argumentNumber (s : String) : Int × Bool :=
  match s.toList with
  | [] => (0, true)
  | '\'' :: c :: _ => (c.toNat, true)
  | '"' :: c :: _ => (c.toNat, true)
  | cs =>
    let isSpace (c : Char) : Bool := c == ' ' || ('\t' ≤ c && c ≤ '\x0d')
    let cs := cs.dropWhile isSpace
    let (negative, ds) :=
      match cs with
      | '-' :: ds => (true, ds)
      | '+' :: ds => (false, ds)
      | ds => (false, ds)
    let isHex (c : Char) : Bool := Arithmetic.digitValue c < 16
    let (whole, base, digits) :=
      match ds with
      | '0' :: 'x' :: hs => if hs.head?.any isHex then (2, 16, hs.takeWhile isHex) else (0, 8, ['0'])
      | '0' :: 'X' :: hs => if hs.head?.any isHex then (2, 16, hs.takeWhile isHex) else (0, 8, ['0'])
      | '0' :: os => (0, 8, '0' :: os.takeWhile isOctal)
      | ds => (0, 10, ds.takeWhile Char.isDigit)
    let n : Int := (Arithmetic.digitsValue? base digits).getD 0
    let complete := !digits.isEmpty && ds.length = whole + digits.length
    (if negative then max (-n) Int64.minValue.toInt else min n Int64.maxValue.toInt, complete)

/-- The digits of a number in a base. -/
def digitsOf (base : Nat) (upper : Bool) (n : Nat) : List Char :=
  let digits := Nat.toDigits base n
  if upper then digits.map Char.toUpper else digits

/-- A number printed as a directive says. -/
def formatNumber (l : Layout) (directive : Char) (n : Int) : List Char :=
  if directive = 'd' ∨ directive = 'i' then
    let sign := if n < 0 then ['-'] else if l.plus then ['+'] else if l.blank then [' '] else []
    l.fillNumber sign (digitsOf 10 false n.natAbs)
  else
    let k := (n.emod UInt64.size).toNat
    match directive with
    | 'o' => l.fillNumber [] (if l.alternate then '0' :: digitsOf 8 false k else digitsOf 8 false k)
    | 'x' => l.fillNumber (if l.alternate ∧ k ≠ 0 then ['0', 'x'] else []) (digitsOf 16 false k)
    | 'X' => l.fillNumber (if l.alternate ∧ k ≠ 0 then ['0', 'X'] else []) (digitsOf 16 true k)
    | _ => l.fillNumber [] (digitsOf 10 false k)

/-- How a format went so far. -/
structure Formatted where
  out : List Char := []
  args : List String
  status : Nat := 0
  /-- Whether nothing more is printed. -/
  ended : Bool := false

/-- Reads a number of a layout, which may be an argument. -/
def layoutNumber (cs : List Char) (args : List String) : Int × List Char × List String :=
  match cs with
  | '*' :: cs => ((argumentNumber (args.headD "")).1, cs, args.tail)
  | cs =>
    let digits := cs.takeWhile Char.isDigit
    (((Arithmetic.digitsValue? 10 digits).getD 0 : Nat), cs.drop digits.length, args)

/-- The layout at the beginning of a directive. -/
def readLayout (cs : List Char) (args : List String) : Layout × List Char × List String :=
  let isFlag (c : Char) : Bool := ['-', '+', ' ', '#', '0'].contains c
  let flags := cs.takeWhile isFlag
  let l : Layout :=
    { left := flags.contains '-', plus := flags.contains '+', blank := flags.contains ' '
      alternate := flags.contains '#', zeros := flags.contains '0' }
  let (width, cs, args) := layoutNumber (cs.drop flags.length) args
  let l := { l with width := width.natAbs, left := l.left || width < 0 }
  match cs with
  | '.' :: cs =>
    let (precision, cs, args) := layoutNumber cs args
    ({ l with precision := if precision < 0 then none else some precision.toNat }, cs, args)
  | cs => (l, cs, args)

/-- Prints by a format once. -/
def formatOnce : Nat → List Char → Formatted → Formatted
  | 0, _, f => f
  | _ + 1, [], f => f
  | n + 1, '%' :: '%' :: cs, f => formatOnce n cs { f with out := f.out ++ ['%'] }
  | n + 1, '%' :: cs, f =>
    let (l, cs, args) := readLayout cs f.args
    let arg := args.headD ""
    let cut (text : List Char) : List Char :=
      match l.precision with
      | some p => text.take p
      | none => text
    match cs with
    | 's' :: cs =>
      formatOnce n cs { f with out := f.out ++ l.fill (cut arg.toList), args := args.tail }
    | 'c' :: cs =>
      formatOnce n cs { f with out := f.out ++ l.fill [arg.toList.headD '\x00'], args := args.tail }
    | 'b' :: cs =>
      let (text, ended) := unescape (arg.length + 1) arg.toList
      let f := { f with out := f.out ++ l.fill (cut text), args := args.tail }
      if ended then { f with ended := true } else formatOnce n cs f
    | c :: cs =>
      if ['d', 'i', 'u', 'o', 'x', 'X'].contains c then
        let (k, complete) := argumentNumber arg
        formatOnce n cs { f with
          out := f.out ++ formatNumber l c k, args := args.tail
          status := if complete then f.status else 1 }
      else { f with status := 2, ended := true }
    | [] => { f with status := 2, ended := true }
  | n + 1, '\\' :: c :: cs, f =>
    if isOctal c then
      let digits := octalDigits (c :: cs)
      formatOnce n ((c :: cs).drop digits.length) { f with out := f.out ++ [octalByte digits] }
    else
      match controlChar? c with
      | some d => formatOnce n cs { f with out := f.out ++ [d] }
      | none => formatOnce n (c :: cs) { f with out := f.out ++ ['\\'] }
  | n + 1, c :: cs, f => formatOnce n cs { f with out := f.out ++ [c] }

/-- Prints by a format as often as there are arguments. -/
def formatAll : Nat → List Char → Formatted → Formatted
  | 0, _, f => f
  | n + 1, cs, f =>
    let g := formatOnce (cs.length + 1) cs f
    if g.ended || g.args.isEmpty || g.args.length = f.args.length then g else formatAll n cs g

/-- What `printf` prints, and its status. -/
def formatted (format : String) (args : List String) : String × Nat :=
  let f := formatAll (args.length + 1) format.toList { args }
  (String.ofList f.out, f.status)

end LikelyInvariants.Shell
