import QueryForest.Numeric.Arithmetic

namespace QueryForest

/-!
# Numbers with a correction

A real number held as the sum of two binary numbers, of which the second corrects the first. This
doubles the number of digits, and all of it is arithmetic on binary numbers.

* `Compensated.ofRatio` is the pair for a quotient of naturals;
* `Compensated.mul` is a product, whose correction is computed from the halves of the first numbers
  and so is rounded itself;
* `Compensated.scale` multiplies by a power of ten, in steps of a hundred, ten and one places.
-/

/-- The sum of a number and its correction. -/
structure Compensated (f : BinaryFormat) where
  head : Binary f
  tail : Binary f
  deriving DecidableEq

/-- The leading half of a number: the same number with the last bits of the fraction cleared. -/
def Binary.leading {f : BinaryFormat} (x : Binary f) : Binary f :=
  ofMagnitude x.isNegative (x.magnitude - x.magnitude % Nat.pow 2 (f.fractionBits / 2))

namespace Compensated

variable {f : BinaryFormat}

/-- A number that needs no correction. -/
def ofBinary (x : Binary f) : Compensated f := ⟨x, .zero false⟩

/-- The number nearest to `num / den`, with the number nearest to what is left as correction. -/
def ofRatio (num den : Nat) : Compensated f :=
  let head : Binary f := .ofRatio false num den
  let left : Int := (num * Nat.pow 2 f.scale : Nat) - (head.units * den : Nat)
  ⟨head, .ofRatio (left < 0) left.natAbs (den * Nat.pow 2 f.scale)⟩

/-- The number that the sum rounds to. -/
def value (x : Compensated f) : Binary f := x.head.add x.tail

/-- The product. The halves of the two numbers have exact products; the small parts are added up in
rounded arithmetic. -/
def mul (x y : Compensated f) : Compensated f :=
  let xh := x.head.leading
  let xl := x.head.sub xh
  let yh := y.head.leading
  let yl := y.head.sub yh
  let large := xh.mul yh
  let cross := (xh.mul yl).add (xl.mul yh)
  let sum := large.add cross
  -- what the sum has lost, and the products of the small parts
  let lost := ((large.sub sum).add cross).add (xl.mul yl)
  let small := ((x.head.mul y.tail).add (x.tail.mul y.head)).add lost
  let head := sum.add small
  ⟨head, (sum.sub head).add small⟩

/-- A power of ten. -/
def tenTo (e : Int) : Compensated f := ofRatio (Nat.pow 10 e.toNat) (Nat.pow 10 (-e).toNat)

/-- The number times `10 ^ e`. -/
def scale (x : Compensated f) (e : Int) : Compensated f :=
  let steps (size count : Nat) (x : Compensated f) : Compensated f :=
    let factor : Compensated f := tenTo (if e < 0 then -size else size)
    Nat.repeat (·.mul factor) count x
  let n := e.natAbs
  steps 1 (n % 10) (steps 10 (n / 10 % 10) (steps 100 (n / 100) x))

/-- Multiplies by `10 ^ step` for as long as the first number satisfies a condition, at most `n`
times; also gives the number of places that were moved. -/
def scaleWhile (p : Binary f → Bool) (step : Int) : Nat → Compensated f → Compensated f × Int
  | 0, x => (x, 0)
  | n + 1, x =>
    if p x.head then
      let (y, places) := scaleWhile p step n (x.mul (tenTo step))
      (y, places + step)
    else (x, 0)

end Compensated

end QueryForest
