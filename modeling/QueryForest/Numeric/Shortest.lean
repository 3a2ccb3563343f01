import QueryForest.Numeric.Binary

namespace QueryForest

/-!
# Shortest decimals

The decimal with the fewest digits that reads back as a given binary number, and of those the
nearest; of two equally near the larger.

* `Decimal` is a whole number times a power of ten;
* `Binary.shortest` finds the decimal of a finite number other than zero, without its sign.

The reals that read back as a number reach half way to each neighbour, both ends included iff the
pattern is even. For each digit count the only candidates are the two neighbours of the number on
the grid of that many digits.
-/

/-- The number `coefficient * 10 ^ exponent`. -/
structure Decimal where
  coefficient : Nat
  exponent : Int
  deriving DecidableEq

/-- The number of decimal digits, none for zero. -/
def digitCount (n : Nat) : Nat :=
  if n = 0 then 0 else digitCount (n / 10) + 1

/-- Drops the zeros at the end of a coefficient. -/
def Decimal.trim (d : Decimal) : Decimal :=
  if d.coefficient ≠ 0 ∧ d.coefficient % 10 = 0 then
    Decimal.trim ⟨d.coefficient / 10, d.exponent + 1⟩
  else d
termination_by d.coefficient
decreasing_by
  next h => exact Nat.div_lt_self (Nat.pos_of_ne_zero h.1) (by decide)

/-- The place of the first digit of `num / den`: `e` with `10 ^ e ≤ num / den < 10 ^ (e + 1)`. -/
def leadingPlace (num den : Nat) : Int :=
  if den ≤ num then (digitCount (num / den) : Int) - 1
  else -(digitCount ((den - 1) / num) : Int)

namespace Binary

variable {f : BinaryFormat}

/-- The reals that round to a number, as a fraction `low/den`, `high/den` around `mid/den`. -/
structure Neighbourhood where
  low : Nat
  mid : Nat
  high : Nat
  den : Nat
  closed : Bool

/-- The interval of a finite number other than zero, without its sign. -/
def neighbourhood (x : Binary f) : Neighbourhood where
  low := f.units (x.magnitude - 1) + x.units
  mid := 2 * x.units
  high := x.units + f.units (x.magnitude + 1)
  den := Nat.pow 2 (f.scale + 1)
  closed := x.magnitude % 2 = 0

/-- Whether `c * p / q` lies in the interval. -/
def Neighbourhood.holds (i : Neighbourhood) (c p q : Nat) : Bool :=
  let v := c * p * i.den
  if i.closed then i.low * q ≤ v && v ≤ i.high * q else i.low * q < v && v < i.high * q

/-- The nearer of the two neighbours with `count` digits that lies in the interval. -/
def Neighbourhood.withDigits (i : Neighbourhood) (count : Nat) : Option Decimal :=
  let exponent := leadingPlace i.mid i.den - (count : Int) + 1
  let p := Nat.pow 10 exponent.toNat
  let q := Nat.pow 10 (-exponent).toNat
  let num := i.mid * q
  let den := i.den * p
  let below := num / den
  let rest := num % den
  -- every other point of the grid is farther away than one of these two
  let lower := i.holds below p q
  let upper := i.holds (below + 1) p q
  -- of two hits the nearer wins, on a tie the larger
  if upper && (!lower || den ≤ 2 * rest) then some ⟨below + 1, exponent⟩
  else if lower then some ⟨below, exponent⟩
  else none

/-- The shortest decimal of a finite number other than zero, without its sign. Seventeen digits
are enough for every number of 64 bits, so the search always ends with an answer. -/
def shortest (x : Binary f) : Decimal :=
  let i := x.neighbourhood
  (((List.range 17).findSome? fun n => i.withDigits (n + 1)).getD ⟨0, 0⟩).trim

end Binary

end QueryForest
