import LikelyInvariants.Platform.Shell.Script

/-!
# Reading shell scripts

Commands are read character by character, by recursive descent. A script is carried out line by
line: what is read at once is a line, or as many lines as its commands go over. A script that ends
in the middle of a command is unfinished; more lines could complete it.
-/

namespace LikelyInvariants.Shell

/-- Why a command cannot be read. -/
inductive ReadFailure where
  /-- The script ends too early. -/
  | unfinished
  | malformed
deriving DecidableEq

/-- Reads the beginning of a text and leaves the rest. -/
abbrev Reader (α : Type) : Type := StateT (List Char) (Except ReadFailure) α

/-- Characters that end a word unless they are quoted. -/
def endsWord (c : Char) : Bool :=
  [' ', '\t', '\n', ';', '&', '|', '(', ')', '<', '>'].contains c

/-- Words that have a meaning of their own where a command can begin. -/
def reservedWords : List String :=
  ["!", "\x7b", "\x7d", "case", "do", "done", "elif", "else", "esac", "fi", "for", "if", "then",
    "until", "while"]

/-- Reserved words that end a list of commands. -/
def closers : List String := ["do", "done", "then", "elif", "else", "fi", "esac", "\x7d"]

/-- Commands that cannot be given another meaning. -/
def specialCommands : List String :=
  [".", ":", "break", "continue", "eval", "exec", "exit", "export", "readonly", "return", "set",
    "shift", "times", "trap", "unset"]

/-- What follows blanks and a comment. -/
def afterBlanks : List Char → List Char
  | ' ' :: cs => afterBlanks cs
  | '\t' :: cs => afterBlanks cs
  | '\\' :: '\n' :: cs => afterBlanks cs
  | '#' :: cs => cs.dropWhile (· ≠ '\n')
  | cs => cs

/-- What follows blanks, comments and ends of lines. -/
def afterLines : Nat → List Char → List Char
  | 0, cs => cs
  | n + 1, cs =>
    match afterBlanks cs with
    | '\n' :: rest => afterLines n rest
    | rest => rest

/-- The unquoted word at the beginning, as it stands there. -/
def bareWord (cs : List Char) : String := String.ofList (cs.takeWhile (!endsWord ·))

/-- The operator at the beginning, of those that end a command or link it to another. -/
def operator? : List Char → Option String
  | ';' :: ';' :: _ => some ";;"
  | ';' :: _ => some ";"
  | '&' :: '&' :: _ => some "&&"
  | '&' :: _ => some "&"
  | '|' :: '|' :: _ => some "||"
  | '|' :: _ => some "|"
  | '(' :: _ => some "("
  | ')' :: _ => some ")"
  | '\n' :: _ => some "\n"
  | _ => none

namespace Reader

def fail {α : Type} (f : ReadFailure) : Reader α := throw f

/-- Fails where something else is wanted: at the end of the text the script is unfinished. -/
def unexpected {α : Type} : Reader α := do
  if (← get).isEmpty then fail .unfinished else fail .malformed

def skipBlanks : Reader Unit := modify afterBlanks

def skipLines : Reader Unit := modify fun cs => afterLines (cs.length + 1) cs

/-- Skips so many characters. -/
def skip (n : Nat) : Reader Unit := modify (·.drop n)

/-- The operator that comes next. -/
def nextOperator : Reader (Option String) := do
  skipBlanks
  return operator? (← get)

/-- The word that comes next, as it stands there. -/
def nextWord : Reader String := do
  skipBlanks
  return bareWord (← get)

/-- Reads an operator. -/
def expectOperator (s : String) : Reader Unit := do
  if (← nextOperator) = some s then skip s.length else unexpected

/-- Reads a reserved word, which may begin on a later line. -/
def expectWord (s : String) : Reader Unit := do
  skipLines
  if (← nextWord) = s then skip s.length else unexpected

/-- Reads what is between apostrophes, after the first. -/
def singleQuoted : Reader Piece := do
  let (inside, rest) := (← get).span (· ≠ '\'')
  match rest with
  | [] => fail .unfinished
  | _ :: rest =>
    set rest
    return .text (String.ofList inside) true

end Reader

open Reader

/-- Where pieces of a word are read. -/
inductive Setting where
  /-- In a word by itself. -/
  | word
  /-- Between quotation marks. -/
  | quotation
  /-- After the name of a parameter, up to a closing brace. -/
  | braces (quoted : Bool)
  /-- In a text in the script, up to its end. -/
  | document
  /-- In an arithmetic expression, with so many open parentheses. -/
  | arithmetic (depth : Nat)

namespace Setting

/-- Whether it is a word by itself. -/
def isWord : Setting → Bool
  | word => true
  | _ => false

/-- Whether what is read is quoted. -/
def isQuoted : Setting → Bool
  | word => false
  | quotation => true
  | braces quoted => quoted
  | document => true
  | arithmetic _ => true

/-- Whether a backslash takes the meaning from a character. -/
def escapes (c : Char) : Setting → Bool
  | word => true
  | quotation => ['$', '\x60', '"', '\\'].contains c
  | braces false => true
  | braces true => ['$', '\x60', '"', '\\', '\x7d'].contains c
  | document => ['$', '\x60', '\\'].contains c
  | arithmetic _ => ['$', '\x60', '"', '\\'].contains c

/-- Whether a character may have a meaning of its own. -/
def isSpecial (c : Char) (s : Setting) : Bool :=
  match s with
  | word => endsWord c || ['\\', '\'', '"', '$', '\x60'].contains c
  | document => ['\\', '$', '\x60'].contains c
  | _ => ['\\', '\'', '"', '$', '\x60', '\x7d', '(', ')'].contains c

end Setting

/-- Cuts off the rest of a line; quotes in it may go on over its end. -/
def cutLine : Nat → List Char → List Char × List Char
  | 0, cs => (cs, [])
  | _ + 1, [] => ([], [])
  | _ + 1, '\n' :: cs => ([], cs)
  | n + 1, '\\' :: c :: cs =>
    let (line, rest) := cutLine n cs
    ('\\' :: c :: line, rest)
  | n + 1, c :: cs =>
    if c = '\'' ∨ c = '"' then
      let (inside, after) := cs.span (· ≠ c)
      let (line, rest) := cutLine n (after.drop 1)
      (c :: inside ++ after.take 1 ++ line, rest)
    else
      let (line, rest) := cutLine n cs
      (c :: line, rest)

/-- The lines of a text up to one that is the given mark, and what follows that. -/
def cutDocument (mark : List Char) (withoutTabs : Bool) : Nat → List Char → List Char × List Char
  | 0, cs => ([], cs)
  | _ + 1, [] => ([], [])
  | n + 1, cs =>
    let (line, rest) := cs.span (· ≠ '\n')
    let line := if withoutTabs then line.dropWhile (· = '\t') else line
    if line = mark then ([], rest.drop 1)
    else
      let (lines, after) := cutDocument mark withoutTabs n (rest.drop 1)
      (line ++ rest.take 1 ++ lines, after)

/-- A word without its quotes, and whether it had any. -/
def unquote : List Char → List Char × Bool
  | [] => ([], false)
  | '\\' :: c :: cs => (c :: (unquote cs).1, true)
  | '\'' :: cs => ((unquote cs).1, true)
  | '"' :: cs => ((unquote cs).1, true)
  | c :: cs =>
    let (rest, quoted) := unquote cs
    (c :: rest, quoted)

/-- What stands between back quotes, after the first, and what follows. A backslash takes the
meaning from a few characters. -/
def cutBackQuoted (quoted : Bool) : List Char → Option (List Char × List Char)
  | [] => none
  | '\x60' :: cs => some ([], cs)
  | '\\' :: c :: cs =>
    let escaped := ['$', '\x60', '\\'].contains c || (quoted && c == '"')
    (cutBackQuoted quoted cs).map fun (inside, rest) =>
      ((if escaped then [c] else ['\\', c]) ++ inside, rest)
  | c :: cs => (cutBackQuoted quoted cs).map fun (inside, rest) => (c :: inside, rest)

/-- The name of a parameter, after a dollar sign or an opening brace. -/
def parameterName (braced : Bool) : Reader (Option String) := do
  match ← get with
  | [] => return none
  | c :: cs =>
    if c.isDigit then
      let digits := if braced then (c :: cs).takeWhile Char.isDigit else [c]
      skip digits.length
      return some (String.ofList digits)
    else if isNameChar c then
      let name := (c :: cs).takeWhile isNameChar
      skip name.length
      return some (String.ofList name)
    else if ['@', '*', '#', '?', '-', '$', '!'].contains c then
      skip 1
      return some c.toString
    else return none

/-- The name and the word of an assignment, if a word is one. -/
def assignment? : Word → Option (String × Word)
  | .text s false :: rest =>
    let (name, after) := s.toList.span (· ≠ '=')
    match after with
    | _ :: value =>
      if isName (String.ofList name) then
        some (String.ofList name,
          if value.isEmpty then rest else .text (String.ofList value) false :: rest)
      else none
    | [] => none
  | _ => none

mutual

/-- Reads pieces as far as the setting goes. -/
def readPieces : Nat → Setting → Reader Word
  | 0, _ => fail .malformed
  | n + 1, setting => do
    let piece (p : Piece) : Reader Word := return p :: (← readPieces n setting)
    match ← get, setting with
    | [], .word => return []
    | [], .document => return []
    | [], _ => fail .unfinished
    | '\\' :: '\n' :: _, _ => do
      skip 2
      readPieces n setting
    | ['\\'], _ => do
      skip 1
      piece (.text "\\" true)
    | '\\' :: c :: _, _ => do
      skip 2
      piece (.text (if setting.escapes c then c.toString else String.ofList ['\\', c]) true)
    | '$' :: _, _ => do
      skip 1
      piece (← readExpansion n setting.isQuoted)
    | '\x60' :: cs, _ =>
      match cutBackQuoted setting.isQuoted cs with
      | none => fail .unfinished
      | some (inside, rest) => do
        set inside
        let c ← readList n false
        if !(← get).isEmpty then fail .malformed
        set rest
        piece (.output c setting.isQuoted)
    | '"' :: _, .quotation => do
      skip 1
      return []
    | '"' :: _, .braces _ => do
      skip 1
      return .text "" true :: (← readPieces n .quotation) ++ (← readPieces n setting)
    | '"' :: _, .word => do
      skip 1
      return .text "" true :: (← readPieces n .quotation) ++ (← readPieces n setting)
    | '\'' :: _, .word => do
      skip 1
      piece (← singleQuoted)
    | '\'' :: _, .braces false => do
      skip 1
      piece (← singleQuoted)
    | '\x7d' :: _, .braces _ => do
      skip 1
      return []
    | ')' :: ')' :: _, .arithmetic 0 => do
      skip 2
      return []
    | ')' :: _, .arithmetic 0 => do
      skip 1
      piece (.text ")" true)
    | ')' :: _, .arithmetic (depth + 1) => do
      skip 1
      return .text ")" true :: (← readPieces n (.arithmetic depth))
    | '(' :: _, .arithmetic depth => do
      skip 1
      return .text "(" true :: (← readPieces n (.arithmetic (depth + 1)))
    | c :: cs, setting =>
      if setting.isWord && endsWord c then return []
      else do
        let run := c :: cs.takeWhile (!setting.isSpecial ·)
        skip run.length
        piece (.text (String.ofList run) setting.isQuoted)

/-- Reads what follows a dollar sign. -/
def readExpansion : Nat → Bool → Reader Piece
  | 0, _ => fail .malformed
  | n + 1, quoted => do
    match ← get with
    | '(' :: '(' :: _ => do
      skip 2
      return .number (← readPieces n (.arithmetic 0)) quoted
    | '(' :: _ => do
      skip 1
      let c ← readList n false
      skipLines
      expectOperator ")"
      return .output c quoted
    | '\x7b' :: '#' :: '\x7d' :: _ => do
      skip 3
      return .value "#" .itself quoted
    | '\x7b' :: '#' :: c :: cs => do
      if [':', '-', '=', '?', '+', '#', '%'].contains c && cs.head? ≠ some '\x7d' then
        skip 2
        return .value "#" (← readRule n quoted) quoted
      skip 2
      match ← parameterName true with
      | none => return .value "" (← readUnknown n quoted) quoted
      | some name =>
        match ← get with
        | '\x7d' :: _ => do
          skip 1
          return .value name .length quoted
        | _ => return .value name (← readUnknown n quoted) quoted
    | '\x7b' :: _ => do
      skip 1
      match ← parameterName true with
      | none => return .value "" (← readUnknown n quoted) quoted
      | some name => return .value name (← readRule n quoted) quoted
    | _ =>
      match ← parameterName false with
      | none => return .text "$" true
      | some name => return .value name .itself quoted

/-- Reads a rule that does not exist up to its end. -/
def readUnknown : Nat → Bool → Reader ValueRule
  | 0, _ => fail .malformed
  | n + 1, quoted => do
    let _ ← readPieces n (.braces quoted)
    return .unknown

/-- Reads what follows the name of a parameter in braces. -/
def readRule : Nat → Bool → Reader ValueRule
  | 0, _ => fail .malformed
  | n + 1, quoted => do
    match ← get with
    | [] => fail .unfinished
    | '\x7d' :: _ => do
      skip 1
      return .itself
    | '#' :: '#' :: _ => do
      skip 2
      return .withoutStart true (← readPieces n (.braces false))
    | '#' :: _ => do
      skip 1
      return .withoutStart false (← readPieces n (.braces false))
    | '%' :: '%' :: _ => do
      skip 2
      return .withoutEnd true (← readPieces n (.braces false))
    | '%' :: _ => do
      skip 1
      return .withoutEnd false (← readPieces n (.braces false))
    | cs => do
      let orEmpty := cs.head? = some ':'
      let sign := if orEmpty then cs[1]? else cs.head?
      let word : Reader Word := do
        skip (if orEmpty then 2 else 1)
        readPieces n (.braces quoted)
      match sign with
      | some '-' => return .whenAbsent orEmpty (← word)
      | some '=' => return .givenWhenAbsent orEmpty (← word)
      | some '+' => return .whenPresent orEmpty (← word)
      | some '?' => do
        let _ ← word
        return .required orEmpty
      | _ => readUnknown n quoted

/-- Reads a word, which must be there. -/
def readWord : Nat → Reader Word
  | 0 => fail .malformed
  | n + 1 => do
    skipBlanks
    match ← get with
    | [] => fail .unfinished
    | c :: _ => if endsWord c then fail .malformed else readPieces n .word

/-- Reads a redirection, if one comes next. -/
def readRedirection : Nat → Reader (Option Redirection)
  | 0 => fail .malformed
  | n + 1 => do
    skipBlanks
    let cs ← get
    let digits := cs.takeWhile Char.isDigit
    let descriptor (dflt : Nat) := (String.ofList digits).toNat?.getD dflt
    let rest := cs.drop digits.length
    match rest with
    | '<' :: '<' :: rest => do
      let withoutTabs := rest.head? = some '-'
      set (if withoutTabs then rest.drop 1 else rest)
      skipBlanks
      let cs ← get
      let word := cs.takeWhile (!endsWord ·)
      if word.isEmpty then unexpected
      let (mark, quoted) := unquote word
      let rest := cs.drop word.length
      let (line, rest) := cutLine (rest.length + 1) rest
      let (text, rest) := cutDocument mark withoutTabs (rest.length + 1) rest
      let pieces ←
        if quoted then pure [.text (String.ofList text) true]
        else do
          set text
          readPieces n .document
      set (line ++ '\n' :: rest)
      return some (.document (descriptor 0) pieces)
    | '<' :: '&' :: rest => do
      set rest
      return some (.copying (descriptor 0) (← readWord n))
    | '<' :: '>' :: rest => do
      set rest
      return some (.reading (descriptor 0) (← readWord n))
    | '<' :: rest => do
      set rest
      return some (.reading (descriptor 0) (← readWord n))
    | '>' :: '&' :: rest => do
      set rest
      return some (.copying (descriptor 1) (← readWord n))
    | '>' :: '>' :: rest => do
      set rest
      return some (.writing (descriptor 1) (← readWord n) true)
    | '>' :: '|' :: rest => do
      set rest
      return some (.writing (descriptor 1) (← readWord n) false)
    | '>' :: rest => do
      set rest
      return some (.writing (descriptor 1) (← readWord n) false)
    | _ => return none

/-- Reads redirections as long as there are any. -/
def readRedirections : Nat → Reader (List Redirection)
  | 0 => fail .malformed
  | n + 1 => do
    match ← readRedirection n with
    | none => return []
    | some r => return r :: (← readRedirections n)

/-- Reads the rest of a simple command. -/
def readSimple : Nat → List (String × Word) → List Word → List Redirection → Reader Command
  | 0, _, _, _ => fail .malformed
  | n + 1, assignments, words, redirections => do
    match ← readRedirection n with
    | some r => readSimple n assignments words (redirections ++ [r])
    | none =>
      let isNothing := words.isEmpty && assignments.isEmpty && redirections.isEmpty
      match ← get with
      | [] => if isNothing then unexpected else return .simple assignments words redirections
      | c :: cs =>
        match words with
        | [[.text name false]] =>
          if c = '(' ∧ assignments.isEmpty ∧ redirections.isEmpty then
            match afterBlanks cs with
            | ')' :: rest => do
              if !isName name || specialCommands.contains name then fail .malformed
              set rest
              skipLines
              return .define name (← readCommand n)
            | _ => fail .malformed
        | _ => pure ()
        if endsWord c then
          if isNothing then unexpected
          return .simple assignments words redirections
        let word ← readPieces n .word
        match words, assignment? word with
        | [], some a => readSimple n (assignments ++ [a]) words redirections
        | _, _ => readSimple n assignments (words ++ [word]) redirections

/-- Reads words up to the end of a command. -/
def readWords : Nat → Reader (List Word)
  | 0 => fail .malformed
  | n + 1 => do
    skipBlanks
    match ← get with
    | [] => fail .unfinished
    | c :: _ =>
      if c = ';' ∨ c = '\n' then
        skip 1
        return []
      else return (← readWord n) :: (← readWords n)

/-- Reads a command, simple or not. -/
def readCommand : Nat → Reader Command
  | 0 => fail .malformed
  | n + 1 => do
    let finish (c : Command) : Reader Command := do
      match ← readRedirections n with
      | [] => return c
      | redirections => return .redirected c redirections
    match ← nextOperator with
    | some "(" => do
      skip 1
      let c ← readList n true
      skipLines
      expectOperator ")"
      finish (.subshell c)
    | some _ => fail .malformed
    | none =>
      match ← nextWord with
      | "if" => do
        skip 2
        finish (← readCond n)
      | "while" => do
        skip 5
        finish (← readLoop n false)
      | "until" => do
        skip 5
        finish (← readLoop n true)
      | "for" => do
        skip 3
        finish (← readFor n)
      | "case" => do
        skip 4
        let subject ← readWord n
        expectWord "in"
        finish (.select subject (← readBranches n))
      | "\x7b" => do
        skip 1
        let c ← readList n true
        expectWord "\x7d"
        finish c
      | word =>
        if reservedWords.contains word then fail .malformed
        else readSimple n [] [] []

/-- Reads a conditional after its first word. -/
def readCond : Nat → Reader Command
  | 0 => fail .malformed
  | n + 1 => do
    let test ← readList n true
    expectWord "then"
    let yes ← readList n true
    skipLines
    match ← nextWord with
    | "elif" => do
      skip 4
      return .cond test yes (← readCond n)
    | "else" => do
      skip 4
      let no ← readList n true
      expectWord "fi"
      return .cond test yes no
    | _ => do
      expectWord "fi"
      return .cond test yes .skip

/-- Reads a loop after its first word. -/
def readLoop : Nat → Bool → Reader Command
  | 0, _ => fail .malformed
  | n + 1, untilTrue => do
    let test ← readList n true
    expectWord "do"
    let body ← readList n true
    expectWord "done"
    return .loop untilTrue test body

/-- Reads a loop over words after its first word. -/
def readFor : Nat → Reader Command
  | 0 => fail .malformed
  | n + 1 => do
    let name ← nextWord
    if !isName name then unexpected
    skip name.length
    skipLines
    let words ←
      if (← nextWord) = "in" then do
        skip 2
        some <$> readWords n
      else do
        if (← nextOperator) = some ";" then skip 1
        pure none
    expectWord "do"
    let body ← readList n true
    expectWord "done"
    return .forEach name words body

/-- Reads the branches of a choice up to its last word. -/
def readBranches : Nat → Reader (List (List Word × Command))
  | 0 => fail .malformed
  | n + 1 => do
    skipLines
    if (← nextWord) = "esac" then
      skip 4
      return []
    if (← nextOperator) = some "(" then skip 1
    let patterns ← readPatterns n
    let body ← readList n false
    skipLines
    match ← nextOperator with
    | some ";;" => do
      skip 2
      return (patterns, body) :: (← readBranches n)
    | _ => do
      expectWord "esac"
      return [(patterns, body)]

/-- Reads the patterns of a branch up to the parenthesis. -/
def readPatterns : Nat → Reader (List Word)
  | 0 => fail .malformed
  | n + 1 => do
    let pattern ← readWord n
    match ← nextOperator with
    | some "|" => do
      skip 1
      return pattern :: (← readPatterns n)
    | _ => do
      expectOperator ")"
      return [pattern]

/-- Reads commands, each reading what the one before it prints. -/
def readStages : Nat → Reader (List Command)
  | 0 => fail .malformed
  | n + 1 => do
    let stage ← readCommand n
    match ← nextOperator with
    | some "|" => do
      skip 1
      skipLines
      return stage :: (← readStages n)
    | _ => return [stage]

/-- Reads a command that may be negated or be made of several side by side. -/
def readPipeline : Nat → Reader Command
  | 0 => fail .malformed
  | n + 1 => do
    let negated := (← nextWord) = "!"
    if negated then skip 1
    let c ← match ← readStages n with
      | [c] => pure c
      | stages => pure (.pipeline stages)
    return if negated then .negated c else c

/-- Reads what a command is linked to. -/
def readLinks : Nat → Command → Reader Command
  | 0, _ => fail .malformed
  | n + 1, first => do
    match ← nextOperator with
    | some "&&" => do
      skip 2
      skipLines
      readLinks n (.both first (← readPipeline n))
    | some "||" => do
      skip 2
      skipLines
      readLinks n (.either first (← readPipeline n))
    | _ => return first

/-- Reads a command with what it is linked to, and whether a sign ends it. -/
def readStep : Nat → Reader (Command × Bool)
  | 0 => fail .malformed
  | n + 1 => do
    let c ← readLinks n (← readPipeline n)
    match ← nextOperator with
    | some "&" => do
      skip 1
      return (.background c, true)
    | some ";" => do
      skip 1
      return (c, true)
    | _ => return (c, false)

/-- Reads commands as long as there are any, of which there must be one if `required` is set. -/
def readList : Nat → Bool → Reader Command
  | 0, _ => fail .malformed
  | n + 1, required => do
    skipLines
    let atEnd := (← get).isEmpty || closers.contains (← nextWord) ||
      (← nextOperator).any [")", ";;"].contains
    if atEnd then
      if required then unexpected else return .skip
    let (first, ended) ← readStep n
    if ended || (← nextOperator) = some "\n" then
      match ← readList n false with
      | .skip => return first
      | second => return .seq first second
    else return first

end

/-- Reads the commands of a line, with the lines they go over. -/
def readLine (n : Nat) : Nat → Reader Command
  | 0 => fail .malformed
  | k + 1 => do
    let (first, ended) ← readStep n
    skipBlanks
    match ← get with
    | [] => return first
    | '\n' :: _ => do
      skip 1
      return first
    | _ => if ended then return .seq first (← readLine n k) else fail .malformed

/-- What is read of a script at once. -/
inductive Portion where
  | command (c : Command) (rest : List Char)
  /-- Nothing is left. -/
  | ended
  | failed (f : ReadFailure)

/-- Reads the next line of a script that has a command, with the lines its commands go over. -/
def nextPortion (cs : List Char) : Portion :=
  match afterLines (cs.length + 1) cs with
  | [] => .ended
  | cs =>
    match (readLine (20 * cs.length + 100) (cs.length + 1)).run cs with
    | .ok (c, rest) => .command c rest
    | .error f => .failed f

end LikelyInvariants.Shell
