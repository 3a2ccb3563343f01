import QueryForest.Numeric.Binary

namespace QueryForest.Binary

/-!
# Arithmetic on binary numbers

The sum, the difference, the product and the quotient of two numbers, each the number nearest to
the exact result, with the even pattern on a tie.

* `signedUnits` is a finite number as an integer, so that the sum of two numbers is exact before it
  is rounded;
* `add`, `sub` and `mul` take all numbers: a NaN gives a NaN, and so does a result without a value,
  such as the difference of two equal infinities.
-/

variable {f : BinaryFormat}

/-- A finite number, counted in least positive numbers. -/
def signedUnits (x : Binary f) : Int := if x.isNegative then -(x.units : Int) else x.units

/-- The sum of two finite numbers. A sum of nothing is a positive zero, unless both are negative. -/
def addFinite (x y : Binary f) : Binary f :=
  let sum := x.signedUnits + y.signedUnits
  if sum = 0 then zero (x.isNegative && y.isNegative)
  else ofRatio (sum < 0) sum.natAbs (Nat.pow 2 f.scale)

/-- The sum of two numbers. -/
def add (x y : Binary f) : Binary f :=
  if x.isNaN || y.isNaN then nan
  else if x.isInfinite then
    if y.isInfinite && x.isNegative != y.isNegative then nan else x
  else if y.isInfinite then y
  else addFinite x y

/-- The difference of two numbers. -/
def sub (x y : Binary f) : Binary f := x.add y.neg

/-- The product of two numbers. -/
def mul (x y : Binary f) : Binary f :=
  let negative := x.isNegative != y.isNegative
  if x.isNaN || y.isNaN then nan
  else if x.isInfinite || y.isInfinite then
    if x.magnitude = 0 || y.magnitude = 0 then nan else infinity negative
  else ofRatio negative (x.units * y.units) (Nat.pow 2 (2 * f.scale))

/-- The quotient of two finite numbers, the second not zero. -/
def div (x y : Binary f) : Binary f :=
  ofRatio (x.isNegative != y.isNegative) x.units y.units

end QueryForest.Binary
