import LikelyInvariants.Platform.Toml

/-!
# TOML strings, numbers and dates

The values that contain no others. Strings are read from their opening quote on; all other scalars
are runs of letters, digits and a few signs, which are collected first and then told apart by their
form.
-/

namespace LikelyInvariants.Toml

/-- Control characters, which may stand nowhere; the tab is allowed. -/
def isControl (c : Char) : Bool := (c.toNat < 0x20 && c ≠ '\t') || c.toNat = 0x7f

/-- The value of a digit in some base. -/
def digit? (base : Nat) (c : Char) : Option Nat :=
  let value :=
    if c.isDigit then some (c.toNat - 48)
    else if 'a' ≤ c && c ≤ 'f' then some (c.toNat - 87)
    else if 'A' ≤ c && c ≤ 'F' then some (c.toNat - 55)
    else none
  value.filter (· < base)

/-- The number of some digits. -/
def number (base : Nat) (digits : List Nat) : Nat := digits.foldl (fun n d => base * n + d) 0

/-- The character whose number follows in so many hexadecimal digits. -/
def readCodePoint? (digits : Nat) (cs : List Char) : Option (Char × List Char) := do
  if cs.length < digits then none else
  let n := number 16 (← (cs.take digits).mapM (digit? 16))
  if n.isValidChar then some (Char.ofNat n, cs.drop digits) else none

/-- What a backslash and the characters after it stand for in a string. -/
def readEscape? : List Char → Option (Char × List Char)
  | 'b' :: cs => some ('\x08', cs)
  | 't' :: cs => some ('\t', cs)
  | 'n' :: cs => some ('\n', cs)
  | 'f' :: cs => some ('\x0c', cs)
  | 'r' :: cs => some ('\r', cs)
  | 'e' :: cs => some ('\x1b', cs)
  | '"' :: cs => some ('"', cs)
  | '\\' :: cs => some ('\\', cs)
  | 'x' :: cs => readCodePoint? 2 cs
  | 'u' :: cs => readCodePoint? 4 cs
  | 'U' :: cs => readCodePoint? 8 cs
  | _ => none

/-- A text without the line end it begins with, if it begins with one. -/
def dropLineEnd : List Char → List Char
  | '\n' :: cs => cs
  | '\r' :: '\n' :: cs => cs
  | cs => cs

/-- A string in double quotes, after the opening one. Every round uses up a character of the text,
whose length is fuel enough; the characters read are kept newest first. -/
def readBasic? : Nat → List Char → List Char → Option (String × List Char)
  | 0, _, _ => none
  | _, _, [] => none
  | _, acc, '"' :: cs => some (String.ofList acc.reverse, cs)
  | fuel + 1, acc, '\\' :: cs =>
    match readEscape? cs with
    | some (c, rest) => readBasic? fuel (c :: acc) rest
    | none => none
  | fuel + 1, acc, c :: cs => if isControl c then none else readBasic? fuel (c :: acc) cs

/-- A string in single quotes, after the opening one. -/
def readLiteral? (cs : List Char) : Option (String × List Char) :=
  let (s, rest) := cs.span (fun c => c ≠ '\'' && !isControl c)
  match rest with
  | '\'' :: rest => some (String.ofList s, rest)
  | _ => none

/-- A text without the blanks and line ends it begins with. -/
def dropBlankLines : List Char → List Char
  | ' ' :: cs => dropBlankLines cs
  | '\t' :: cs => dropBlankLines cs
  | '\n' :: cs => dropBlankLines cs
  | '\r' :: '\n' :: cs => dropBlankLines cs
  | cs => cs

/-- Blanks, and the line ends after them, that a backslash at the end of a line removes. -/
def dropContinuation? (cs : List Char) : Option (List Char) :=
  match cs.dropWhile (fun c => c = ' ' || c = '\t') with
  | '\n' :: rest => some (dropBlankLines rest)
  | '\r' :: '\n' :: rest => some (dropBlankLines rest)
  | _ => none

/-- A string of several lines in a kind of quote, after the three opening ones. One or two quotes
before the three closing ones belong to the string. -/
def readLines? (quote : Char) (escapes : Bool) :
    Nat → List Char → List Char → Option (String × List Char)
  | 0, _, _ => none
  | _, _, [] => none
  | fuel + 1, acc, c :: cs =>
    if c = quote then
      let more := (cs.takeWhile (· = quote)).length
      if 2 ≤ more then
        let kept := List.replicate (min (more - 2) 2) quote
        some (String.ofList (acc.reverse ++ kept), cs.drop (min more 4))
      else readLines? quote escapes fuel (c :: acc) cs
    else if c = '\\' && escapes then
      match dropContinuation? cs with
      | some rest => readLines? quote escapes fuel acc rest
      | none =>
        match readEscape? cs with
        | some (e, rest) => readLines? quote escapes fuel (e :: acc) rest
        | none => none
    else if c = '\r' && cs.head? = some '\n' then readLines? quote escapes fuel (c :: acc) cs
    else if c ≠ '\n' && isControl c then none
    else readLines? quote escapes fuel (c :: acc) cs

/-- A string of one line, of either kind. -/
def readLineString? : List Char → Option (String × List Char)
  | '"' :: cs => readBasic? (cs.length + 1) [] cs
  | '\'' :: cs => readLiteral? cs
  | _ => none

/-- A string of any kind. -/
def readString? : List Char → Option (String × List Char)
  | '"' :: '"' :: '"' :: cs => readLines? '"' true (cs.length + 1) [] (dropLineEnd cs)
  | '\'' :: '\'' :: '\'' :: cs => readLines? '\'' false (cs.length + 1) [] (dropLineEnd cs)
  | cs => readLineString? cs

/-- The digits of a number in which underscores may stand between digits. -/
def digits? (base : Nat) (cs : List Char) : Option (List Nat) :=
  let rec go (afterDigit : Bool) : List Char → Option (List Nat)
    | [] => if afterDigit then some [] else none
    | '_' :: cs => if afterDigit then go false cs else none
    | c :: cs => do
      let d ← digit? base c
      let ds ← go true cs
      some (d :: ds)
  go false cs

/-- The digits of a decimal number that does not begin with a needless zero. -/
def decimal? (cs : List Char) : Option (List Nat) :=
  match cs with
  | '0' :: _ :: _ => none
  | cs => digits? 10 cs

/-- The integer a scalar is, if it is one. -/
def integer? (cs : List Char) : Option Int :=
  match cs with
  | '0' :: 'x' :: ds => (digits? 16 ds).map fun ds => number 16 ds
  | '0' :: 'o' :: ds => (digits? 8 ds).map fun ds => number 8 ds
  | '0' :: 'b' :: ds => (digits? 2 ds).map fun ds => number 2 ds
  | '+' :: ds => (decimal? ds).map fun ds => number 10 ds
  | '-' :: ds => (decimal? ds).map fun ds => -(number 10 ds : Int)
  | ds => (decimal? ds).map fun ds => number 10 ds

/-- A sign at the beginning of a number left out. -/
def unsigned : List Char → List Char
  | '+' :: cs => cs
  | '-' :: cs => cs
  | cs => cs

/-- Whether a decimal number, given by its digits and the power of ten of the last one, is too large
for a float: from half a unit above the largest one on. The count of its digits decides, except
for numbers with as many as that limit has. -/
def isTooLarge (digits : List Nat) (power : Int) : Bool :=
  let n := number 10 digits
  let count : Int := (Nat.toDigits 10 n).length + power
  if n = 0 || count < 309 then false
  else if 309 < count then true
  else (0x3fffffffffffff <<< 970) * Nat.pow 10 (-power).toNat ≤ n * Nat.pow 10 power.toNat

/-- The number a scalar is, if it has a fraction or an exponent, or is an infinity or no number. -/
def float? (cs : List Char) : Option Toml :=
  let body := unsigned cs
  if body = "inf".toList || body = "nan".toList then some (.float false)
  else do
    let (mantissa, exponent) := body.span (fun c => c ≠ 'e' && c ≠ 'E')
    let (whole, fraction) := mantissa.span (· ≠ '.')
    if fraction.isEmpty && exponent.isEmpty then none else
    let wholeDigits ← decimal? whole
    let fractionDigits ← match fraction with
      | [] => some []
      | _ :: ds => digits? 10 ds
    let power ← match exponent with
      | [] => some 0
      | _ :: '-' :: ds => (digits? 10 ds).map fun ds => -(number 10 ds : Int)
      | _ :: ds => (digits? 10 (unsigned ds)).map fun ds => (number 10 ds : Int)
    return .float (isTooLarge (wholeDigits ++ fractionDigits) (power - fractionDigits.length))

/-- The number of exactly so many decimal digits. -/
def fixed? (n : Nat) (cs : List Char) : Option Nat :=
  if cs.length = n then (cs.mapM (digit? 10)).map (number 10) else none

/-- The days of a month. -/
def daysIn (year month : Nat) : Nat :=
  if month = 2 then
    if year % 4 = 0 && (year % 100 ≠ 0 || year % 400 = 0) then 29 else 28
  else if month ∈ [4, 6, 9, 11] then 30 else 31

/-- Whether a text is a date. -/
def isDate (cs : List Char) : Bool :=
  match fixed? 4 (cs.take 4), cs[4]?, fixed? 2 ((cs.drop 5).take 2), cs[7]?,
      fixed? 2 (cs.drop 8) with
  | some y, some '-', some m, some '-', some d =>
    1 ≤ m && m ≤ 12 && 1 ≤ d && d ≤ daysIn y m
  | _, _, _, _, _ => false

/-- Whether a text is hours and minutes. -/
def isHourMinute (cs : List Char) : Bool :=
  match fixed? 2 (cs.take 2), cs[2]?, fixed? 2 (cs.drop 3) with
  | some h, some ':', some m => h ≤ 23 && m ≤ 59
  | _, _, _ => false

/-- Whether a text is a time of day; seconds and their fraction may be left out. -/
def isTime (cs : List Char) : Bool :=
  isHourMinute (cs.take 5) &&
    match cs.drop 5 with
    | [] => true
    | ':' :: rest =>
      let fractionOk := match rest.drop 2 with
        | [] => true
        | '.' :: ds => !ds.isEmpty && ds.all Char.isDigit
        | _ => false
      (fixed? 2 (rest.take 2)).any (· ≤ 60) && fractionOk
    | _ => false

/-- Whether a text is a time of day with a distance from universal time. -/
def isOffsetTime (cs : List Char) : Bool :=
  match cs.reverse with
  | 'Z' :: rest | 'z' :: rest => isTime rest.reverse
  | _ =>
    let offset := cs.drop (cs.length - 6)
    (offset.head? = some '+' || offset.head? = some '-') && isHourMinute (offset.drop 1) &&
      isTime (cs.take (cs.length - 6))

/-- Whether a scalar is a date, a time or both. -/
def isDatetime (cs : List Char) : Bool :=
  if isTime cs then true
  else
    isDate (cs.take 10) &&
      match cs.drop 10 with
      | [] => true
      | sign :: rest => (sign ∈ ['T', 't', ' ']) && (isTime rest || isOffsetTime rest)

/-- The value of a scalar that is no string. -/
def scalar? (cs : List Char) : Option Toml :=
  if cs = "true".toList then some (.boolean true)
  else if cs = "false".toList then some (.boolean false)
  else
    ((integer? cs).map .integer).orElse fun _ => (float? cs).orElse fun _ =>
      if isDatetime cs then some .datetime else none

/-- Characters of scalars that are no strings. -/
def isScalarChar (c : Char) : Bool := c.isAlphanum || c ∈ ['_', '+', '-', '.', ':']

/-- A scalar that is no string. A blank between a date and a time belongs to it. -/
def readScalar? (cs : List Char) : Option (Toml × List Char) :=
  let (word, rest) := cs.span isScalarChar
  match rest with
  | ' ' :: c :: tail =>
    if isDate word && c.isDigit then
      let (time, rest) := (c :: tail).span isScalarChar
      (scalar? (word ++ ' ' :: time)).map (·, rest)
    else (scalar? word).map (·, rest)
  | _ => (scalar? word).map (·, rest)

end LikelyInvariants.Toml
