/-!
# Sets of code points

A set of code points is kept as its runs: closed ranges in ascending order with a gap between each
and the next. Every set has one such list, so equal sets are equal values. Union sorts and joins the
runs of both sets, the complement holds the gaps, and the other operations are put together from
these two.

A set can be written as text, one item for each run: the number of code points that are left out
before it, then `+` and the number of code points that follow its first one, then `*` and the number
of times the item is repeated. Numbers have the base 36; a part that would add nothing is left out.
-/

namespace LikelyInvariants

/-- A set of code points, as its runs. -/
structure CodePoints where
  runs : List (Nat × Nat)
deriving DecidableEq

namespace CodePoints

def empty : CodePoints := ⟨[]⟩

/-- Every code point. -/
def all : CodePoints := ⟨[(0, 0x10ffff)]⟩

def range (low high : Char) : CodePoints := ⟨[(low.toNat, high.toNat)]⟩

def single (c : Char) : CodePoints := range c c

/-- Whether the code point is in the set. -/
def has (s : CodePoints) (n : Nat) : Bool := s.runs.any fun (low, high) => low ≤ n && n ≤ high

def contains (s : CodePoints) (c : Char) : Bool := s.has c.toNat

/-- The runs of a range and of ranges that do not begin before it, these in ascending order. -/
def join (low high : Nat) : List (Nat × Nat) → List (Nat × Nat)
  | [] => [(low, high)]
  | (l, h) :: rest =>
    if l ≤ high + 1 then join low (max high h) rest else (low, high) :: join l h rest

/-- The set of the code points in some ranges. -/
def ofRanges (ranges : List (Nat × Nat)) : CodePoints :=
  match ranges.mergeSort (fun a b => a.1 ≤ b.1) with
  | [] => empty
  | (low, high) :: rest => ⟨join low high rest⟩

def ofList (points : List Nat) : CodePoints := ofRanges (points.map fun n => (n, n))

def union (s t : CodePoints) : CodePoints := ofRanges (s.runs ++ t.runs)

/-- The code points that are in one of the sets. -/
def unions (sets : List CodePoints) : CodePoints := ofRanges (sets.flatMap (·.runs))

/-- The gaps between ascending runs, from a code point on. -/
def gaps (first : Nat) : List (Nat × Nat) → List (Nat × Nat)
  | [] => if first ≤ 0x10ffff then [(first, 0x10ffff)] else []
  | (low, high) :: rest =>
    if first < low then (first, low - 1) :: gaps (high + 1) rest else gaps (high + 1) rest

def complement (s : CodePoints) : CodePoints := ⟨gaps 0 s.runs⟩

def inter (s t : CodePoints) : CodePoints := (s.complement.union t.complement).complement

def diff (s t : CodePoints) : CodePoints := s.inter t.complement

/-- The code points in one of the sets but not in both. -/
def symmetricDiff (s t : CodePoints) : CodePoints := (s.diff t).union (t.diff s)

/-- Whether the set has ASCII characters only. -/
def isAscii (s : CodePoints) : Bool := s.runs.all fun (_, high) => high < 0x80

/-- The value of a number to the base 36. -/
def number (text : String) : Nat :=
  text.toList.foldl (fun n c => 36 * n + if c.isDigit then c.toNat - 48 else c.toNat - 87) 0

/-- The code point after the last run so far and the runs, newest first, after one more item. -/
def addItem (state : Nat × List (Nat × Nat)) (item : String) : Nat × List (Nat × Nat) :=
  let (run, times) := match item.splitOn "*" with
    | [run, times] => (run, number times)
    | _ => (item, 1)
  let (skipped, more) := match run.splitOn "+" with
    | [skipped, more] => (number skipped, number more)
    | _ => (number run, 0)
  (List.range times).foldl
    (fun (next, runs) _ => (next + skipped + more + 1, (next + skipped, next + skipped + more) :: runs))
    state

/-- The set that is written as a text, in lines. -/
def ofText (lines : List String) : CodePoints :=
  ⟨((lines.flatMap (·.splitOn " ")).foldl addItem (0, [])).2.reverse⟩

end CodePoints

end LikelyInvariants
