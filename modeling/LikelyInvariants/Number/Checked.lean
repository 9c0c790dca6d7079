/-!
# 64-bit integers with exact arithmetic

Sums, differences and products of observed integers are computed exactly and then kept only when
they fit in 64 bits: a result that does not fit is no result, it never wraps around.
-/

namespace Int64

/-- The 64-bit integer of value `n`, if there is one. -/
def ofInt? (n : Int) : Option Int64 :=
  if Int64.minValue.toInt ≤ n ∧ n ≤ Int64.maxValue.toInt then some (Int64.ofInt n) else none

/-- The sum, if it fits. -/
def add? (a b : Int64) : Option Int64 := ofInt? (a.toInt + b.toInt)

/-- The difference, if it fits. -/
def sub? (a b : Int64) : Option Int64 := ofInt? (a.toInt - b.toInt)

/-- The product, if it fits. -/
def mul? (a b : Int64) : Option Int64 := ofInt? (a.toInt * b.toInt)

/-- The quotient, if `b` divides `a` and the quotient fits. -/
def divExact? (a b : Int64) : Option Int64 :=
  if b.toInt ≠ 0 ∧ a.toInt % b.toInt = 0 then ofInt? (a.toInt / b.toInt) else none

end Int64
