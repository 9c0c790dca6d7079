import LikelyInvariants.Number.Binary64

/-!
# The shortest decimal text of a double

Of all decimals that round to a given double, the text shows one with the fewest digits, and of
those the one nearest to the double; of two equally near ones it shows the greater. The decimals
that round to a double fill an interval around it, so the search is for the coarsest grid
`{d * 10 ^ k}` with a point in that interval. If some point of a grid lies in the interval then so
does one of the two grid points around the double, hence only those two are tried.

The text is positional for every magnitude: there is no exponent part, and a whole number has no
point.
-/

namespace LikelyInvariants

/-- The positive reals that round to one double, with the double itself inside: numerators over
one common denominator. -/
structure RoundingInterval where
  low : Nat
  value : Nat
  high : Nat
  denominator : Nat
  /-- Whether the two ends round to the double as well. -/
  closed : Bool

namespace RoundingInterval

/-- The interval of a positive finite double: halfway to either neighbour, the ends included when
the significand is even. -/
def ofBinary64 (x : Binary64) : RoundingInterval :=
  let m := x.significand
  let up := 1 <<< (x.exponent - 2).toNat
  { low := (4 * m - if x.isBinadeStart then 1 else 2) * up
    value := 4 * m * up
    high := (4 * m + 2) * up
    denominator := 1 <<< (2 - x.exponent).toNat
    closed := m % 2 = 0 }

/-- Whether the fraction `n / d` lies in the interval. -/
def contains (r : RoundingInterval) (n d : Nat) : Bool :=
  let p := n * r.denominator
  if r.closed then r.low * d ≤ p && p ≤ r.high * d else r.low * d < p && p < r.high * d

/-- The point `d` of the grid `{d * 10 ^ k}` to show for the interval, if the grid has one in it:
the nearest to the double, the upper one of two equally near. -/
def gridPoint? (r : RoundingInterval) (k : Int) : Option Nat :=
  let num := Nat.pow 10 k.toNat
  let den := Nat.pow 10 (-k).toNat
  let d := r.value * den / (r.denominator * num)
  match r.contains (d * num) den, r.contains ((d + 1) * num) den with
  | true, true =>
    if 2 * (r.value * den) < (2 * d + 1) * num * r.denominator then some d else some (d + 1)
  | true, false => some d
  | false, true => some (d + 1)
  | false, false => none

/-- The coarsest grid with a point in the interval, as the pair of the point and the grid's
exponent. A grid coarser than the number of integer digits has none, and seventeen significant
digits always suffice, so the range searched is wide enough for every double. -/
def shortest (r : RoundingInterval) : Nat × Int :=
  let top : Nat := (Nat.toDigits 10 (r.value / r.denominator)).length
  let found := (List.range (top + 345)).findSome? fun (i : Nat) =>
    (r.gridPoint? (top - i)).map fun d => (d, (top - i : Int))
  found.getD (0, 0)

end RoundingInterval

/-- The positional text of `d * 10 ^ k`. -/
def positional (d : Nat) (k : Int) : String :=
  let digits := Nat.toDigits 10 d
  match k with
  | .ofNat zeros => String.ofList (digits ++ List.replicate zeros '0')
  | .negSucc places =>
    let places := places + 1
    let padded := List.replicate (places + 1 - digits.length) '0' ++ digits
    let whole := padded.length - places
    String.ofList (padded.take whole ++ '.' :: padded.drop whole)

/-- The text of a double. -/
def Binary64.text (x : Binary64) : String :=
  if x.isNaN then "NaN"
  else
    let sign := if x.isNegative then "-" else ""
    if x.isInfinite then sign ++ "inf"
    else if x.magnitude = 0 then sign ++ "0"
    else
      let (d, k) := (RoundingInterval.ofBinary64 x).shortest
      sign ++ positional d k

end LikelyInvariants
