import LikelyInvariants.Platform.Pattern

/-!
# The size of patterns

A pattern is run as an automaton on the bytes of the text, once from left to right and once from
right to left, and a pattern whose automaton would be too large is refused. The sizes are computed
while the pattern is read, without building the automaton, so a repetition costs nothing to refuse.

A state takes 32 bytes, a transition of a state with several ones 8 and an alternative 4. A set
beyond ASCII is split into sequences of byte ranges, one range for each byte of the encoding. The
automaton from left to right shares a state between all sequences that go on from it, and the other
one has a state for each byte range of a sequence that the sequences before it do not have.
-/

namespace LikelyInvariants

namespace ByteRanges

/-- The number of code points that have at most so many bytes. -/
def limits : List Nat := [0x80, 0x800, 0x10000]

/-- The byte ranges of the code points between two ones whose encodings differ in such a way that
every combination of the bytes in between is the encoding of a code point between them. -/
def ofEnds (low high : Nat) : List (Nat × Nat) :=
  let bytes (n : Nat) := (String.singleton (Char.ofNat n)).toUTF8.toList.map (·.toNat)
  (bytes low).zip (bytes high)

/-- The first code point of the part of a range that has to be split off, if any. -/
def splitPoint? (low high : Nat) : Option Nat :=
  if low ≤ 0xdfff && 0xd800 ≤ high && low < 0xd800 then some 0xd800
  else if 0xd800 ≤ low && low ≤ 0xdfff && 0xdfff < high then some 0xe000
  else
    match limits.find? fun limit => low < limit && limit ≤ high with
    | some limit => some limit
    | none =>
      if high < 0x80 then none
      else
        [0x40, 0x1000, 0x40000].findSome? fun block =>
          if low / block = high / block then none
          else if low % block ≠ 0 then some ((low / block + 1) * block)
          else if high % block ≠ block - 1 then some (high / block * block)
          else none

/-- The sequences of byte ranges of a range of code points. Each split leaves ranges that need
fewer splits, and none needs more than twelve. -/
def ofRange : Nat → Nat → Nat → List (List (Nat × Nat))
  | 0, _, _ => []
  | fuel + 1, low, high =>
    match splitPoint? low high with
    | some n => ofRange fuel low (n - 1) ++ ofRange fuel n high
    | none => if 0xd800 ≤ low && low ≤ 0xdfff then [] else [ofEnds low high]

/-- The length of the longest common beginning. -/
def shared : List (Nat × Nat) → List (Nat × Nat) → Nat
  | a :: as, b :: bs => if a = b then shared as bs + 1 else 0
  | _, _ => 0

/-- The number of byte ranges in ascending sequences, without those each has in common with the
sequence before it. -/
def distinct (previous : List (Nat × Nat)) : List (List (Nat × Nat)) → Nat
  | [] => 0
  | s :: rest => s.length - shared previous s + distinct s rest

end ByteRanges

/-- The bytes that the automata of a pattern take, in the two directions. -/
structure PatternSize where
  forward : Nat
  backward : Nat

namespace PatternSize

def state : PatternSize := ⟨32, 32⟩

def add (a b : PatternSize) : PatternSize := ⟨a.forward + b.forward, a.backward + b.backward⟩

def scale (n : Nat) (a : PatternSize) : PatternSize := ⟨n * a.forward, n * a.backward⟩

/-- A character takes a state for each byte. -/
def ofSet (s : CodePoints) : PatternSize :=
  match s.runs with
  | [] => state
  | [(low, high)] =>
    if low = high then state.scale (Char.ofNat low).utf8Size else ofRuns s
  | _ => ofRuns s
where
  ofRuns (s : CodePoints) : PatternSize :=
    if s.isAscii then
      let n := 64 + 8 * s.runs.length
      ⟨n, n⟩
    else
      let sequences := s.runs.flatMap fun (low, high) => ByteRanges.ofRange 16 low high
      let ranges := ByteRanges.distinct [] sequences
      ⟨64 + 32 * (ranges - sequences.length) + 8 * ranges, 64 + 4 * sequences.length + 32 * ranges⟩

/-- The start and the end of what a group captures are noted from left to right only. -/
def capture (a : PatternSize) : PatternSize := ⟨a.forward + 64, a.backward⟩

def alternatives (sizes : List PatternSize) : PatternSize :=
  (scale (sizes.length) ⟨4, 4⟩).add (sizes.foldl add (state.scale 2))

/-- A repetition has a copy of the pattern for each time it must or may match; of a pattern that
matches nothing but the empty text, one copy is enough. -/
def times (width : Bool) (least : Nat) (most : Option Nat) (a : PatternSize) : PatternSize :=
  let copies (n : Nat) := if width then n else min n 1
  let choice : PatternSize := ⟨40, 40⟩
  match most with
  | none => (a.scale (max 1 (copies least))).add choice
  | some most =>
    if most = 0 then state
    else if most ≤ least then a.scale (copies least)
    else ((a.scale (copies least)).add ((a.add choice).scale (copies most - copies least))).add state

/-- Whether the automata are small enough: with what surrounds every pattern, at most ten
mebibytes. -/
def isAllowed (a : PatternSize) : Bool :=
  a.forward + 200 ≤ 10485760 && a.backward + 200 ≤ 10485760

end PatternSize

/-- Whether the pattern can match a text that is not empty. -/
def Pattern.hasWidth : Pattern → Bool
  | empty => false
  | set _ => true
  | assertion _ => false
  | seq p q => p.hasWidth || q.hasWidth
  | alt p q => p.hasWidth || q.hasWidth
  | times p _ most => most != some 0 && p.hasWidth

end LikelyInvariants
