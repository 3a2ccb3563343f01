import QueryForest.Numeric.Compensated
import QueryForest.Numeric.Shortest
import QueryForest.Text.Digits

namespace QueryForest.RealText

/-!
# Texts of floating-point numbers

How the embedded store writes a floating-point number: with fifteen significant digits, in
positional notation from the fourth place behind the point to the fifteenth before it, and always
with a point.

* `leadingDigits` gives eighteen or nineteen digits of a number, computed in arithmetic with a
  correction, so that the last of them need not be right;
* `decimal` rounds these to fifteen, a half up;
* `render` is the text.
-/

/-- The largest floating-point number below `2 ^ 63`, times a power of ten. -/
def bound (e : Int) : Binary64 :=
  .ofRatio false ((Nat.pow 2 63 - 1024) * Nat.pow 10 e.toNat) (Nat.pow 10 (-e).toNat)

/-- The first digits of a finite number other than zero, without its sign, as a whole number, and
the power of ten that it has to be multiplied by. Steps of a hundred and of ten places bring the
number near to the bound, and steps of one place to between a tenth of the bound and the bound. -/
def leadingDigits (x : Binary64) : Nat × Int :=
  -- ten steps of a kind are enough for every exponent
  let move (p : Binary64 → Bool) (step : Int) (y : Compensated .double × Int) :=
    let (z, places) := y.1.scaleWhile p step 10
    (z, y.2 + places)
  let above (e : Int) (y : Binary64) : Bool := (bound e).magnitude < y.magnitude
  let below (e : Int) (y : Binary64) : Bool := y.magnitude < (bound e).magnitude
  let start := (Compensated.ofBinary x.abs, 0)
  let (y, places) :=
    if above 0 x.abs then
      move (above 0) (-1) (move (above 10) (-10) (move (above 100) (-100) start))
    else move (below (-1)) 1 (move (below (-11)) 10 (move (below (-101)) 100 start))
  -- the correction is cut to a whole number before it counts
  let digits :=
    if y.tail.isNegative then y.head.truncate - y.tail.truncate
    else y.head.truncate + y.tail.truncate
  (digits, -places)

/-- A finite number other than zero with fifteen digits, without its sign. -/
def decimal (x : Binary64) : Decimal :=
  let (digits, power) := leadingDigits x
  let surplus := digitCount digits - 15
  let unit := Nat.pow 10 surplus
  (Decimal.mk ((2 * digits + unit) / (2 * unit)) (power + surplus)).trim

/-- The text of a decimal. -/
def ofDecimal (d : Decimal) : List Char :=
  let digits := Digits.ofNat d.coefficient
  let point : Int := digits.length + d.exponent
  if -4 ≤ point - 1 ∧ point - 1 ≤ 14 then
    if point ≤ 0 then '0' :: '.' :: List.replicate (-point).toNat '0' ++ digits
    else if d.exponent ≥ 0 then digits ++ List.replicate d.exponent.toNat '0' ++ ['.', '0']
    else digits.take point.toNat ++ '.' :: digits.drop point.toNat
  else
    let fraction := digits.drop 1
    let power := (point - 1).natAbs
    digits.take 1 ++ '.' :: (if fraction.isEmpty then ['0'] else fraction) ++
      'e' :: (if point - 1 < 0 then '-' else '+') ::
      (if power < 100 then Digits.fixed 2 power else Digits.fixed 3 power)

/-- The text of a number; a NaN has none. -/
def render (x : Binary64) : List Char :=
  if x.isNaN then []
  else if x.magnitude = 0 then "0.0".toList
  else
    let body := if x.isInfinite then "Inf".toList else ofDecimal (decimal x)
    if x.isNegative then '-' :: body else body

end QueryForest.RealText
