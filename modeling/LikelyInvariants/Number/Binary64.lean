/-!
# Double-precision numbers by their bits

A `Binary64` is the 64 bits of a double. Everything the library needs of a double, its order and
its decimal text, is computed from the bits with integers, so that statements about it reduce to
integer arithmetic.

Comparison goes through `key`: for numbers of one sign the order of the magnitudes is the order of
their bit patterns, both zeros have key zero, and a NaN compares with nothing.
-/

namespace LikelyInvariants

/-- A double-precision number, held as its bits: sign, eleven exponent bits, 52 fraction bits. -/
structure Binary64 where
  bits : UInt64
deriving DecidableEq, Inhabited

namespace Binary64

/-- The sign bit alone, as a number. -/
def signBit : Nat := 0x8000000000000000

/-- One above the greatest fraction: the lowest exponent bit alone, as a number. -/
def fractionSize : Nat := 0x10000000000000

/-- The bits below the sign bit. -/
def magnitude (x : Binary64) : Nat := x.bits.toNat % signBit

def isNegative (x : Binary64) : Bool := signBit ≤ x.bits.toNat

/-- The magnitude of both infinities; greater magnitudes are NaNs. -/
def infinity : Nat := 2047 * fractionSize

def isNaN (x : Binary64) : Bool := infinity < x.magnitude

def isInfinite (x : Binary64) : Bool := x.magnitude = infinity

/-- A signed integer that orders the numbers which are not NaN. -/
def key (x : Binary64) : Int :=
  if x.isNegative then -(x.magnitude : Int) else x.magnitude

/-- The order of two numbers; a NaN has none. -/
def compare? (x y : Binary64) : Option Ordering :=
  if x.isNaN || y.isNaN then none else some (compare x.key y.key)

/-- Equality of numbers: the zeros are equal, and a NaN differs from itself. -/
def equals (x y : Binary64) : Bool := x.compare? y == some .eq

/-- The integer `m` of a finite number `m * 2 ^ e`. -/
def significand (x : Binary64) : Nat :=
  if x.magnitude < fractionSize then x.magnitude
  else fractionSize + x.magnitude % fractionSize

/-- The integer `e` of a finite number `m * 2 ^ e`. -/
def exponent (x : Binary64) : Int :=
  if x.magnitude < fractionSize then -1074 else (x.magnitude / fractionSize : Nat) - 1075

/-- A power of two above the smallest: its lower neighbour is half as far away as its upper one. -/
def isBinadeStart (x : Binary64) : Bool :=
  x.magnitude % fractionSize = 0 && 2 * fractionSize ≤ x.magnitude

end Binary64

end LikelyInvariants
