namespace QueryForest

/-!
# Binary floating-point numbers

Numbers of a binary interchange format, held as their bit pattern, so that everything about them is
arithmetic on natural numbers.

* `BinaryFormat` gives the widths of the exponent and fraction fields; `single` and `double` are
  the two formats in use;
* `Binary f` is a number of format `f`;
* every finite number is a whole multiple of the least positive one: `Binary.units` is that factor;
* `Binary.ofRatio` rounds a quotient of naturals to the nearest number, ties to the even one;
* `Binary.ofInt` and `Binary.convert` are built on it.
-/

/-- The widths of the two fields behind the sign bit. -/
structure BinaryFormat where
  exponentBits : Nat
  fractionBits : Nat
  deriving DecidableEq

namespace BinaryFormat

/-- Eight exponent bits and 23 fraction bits. -/
def single : BinaryFormat := ⟨8, 23⟩

/-- Eleven exponent bits and 52 fraction bits. -/
def double : BinaryFormat := ⟨11, 52⟩

/-- The number of bits of a number, sign included. -/
def width (f : BinaryFormat) : Nat := 1 + f.exponentBits + f.fractionBits

-- `Nat.pow` in full: what `^` stands for depends on the algebra that is imported
/-- The least positive number is `2 ^ (-scale)`. -/
def scale (f : BinaryFormat) : Nat := Nat.pow 2 (f.exponentBits - 1) - 2 + f.fractionBits

/-- The pattern of infinity without its sign; larger patterns are not numbers. -/
def infinity (f : BinaryFormat) : Nat := (Nat.pow 2 f.exponentBits - 1) * Nat.pow 2 f.fractionBits

/-- The sign bit as a number. -/
def signBit (f : BinaryFormat) : Nat := Nat.pow 2 (f.exponentBits + f.fractionBits)

/-- The finite number with pattern `magnitude`, counted in least positive numbers. At infinity and
beyond this continues the row, which gives the gap above the largest finite number. -/
def units (f : BinaryFormat) (magnitude : Nat) : Nat :=
  let exponent := magnitude / Nat.pow 2 f.fractionBits
  let fraction := magnitude % Nat.pow 2 f.fractionBits
  if exponent = 0 then fraction
  else (Nat.pow 2 f.fractionBits + fraction) * Nat.pow 2 (exponent - 1)

/-- The whole number nearest to `num / den`, the even one of two. -/
def nearest (num den : Nat) : Nat :=
  let q := num / den
  let r := num % den
  if 2 * r < den then q else if den < 2 * r then q + 1 else q + q % 2

/-- The pattern of the number nearest to `num / den`, with the even pattern on a tie, and infinity
for what is too large. A carry out of the fraction runs into the exponent, as it should. -/
def round (f : BinaryFormat) (num den : Nat) : Nat :=
  let scaled := num * Nat.pow 2 f.scale
  -- the weight of the last kept bit; zero where the number is subnormal
  let shift := Nat.log2 (scaled / den) - f.fractionBits
  min (shift * Nat.pow 2 f.fractionBits + nearest scaled (den * Nat.pow 2 shift)) f.infinity

end BinaryFormat

/-- A number of format `f`, as its bit pattern. -/
structure Binary (f : BinaryFormat) where
  bits : BitVec f.width
  deriving DecidableEq

/-- A number of 32 bits. -/
abbrev Binary32 := Binary .single

/-- A number of 64 bits. -/
abbrev Binary64 := Binary .double

namespace Binary

variable {f : BinaryFormat}

/-- The pattern without the sign bit. -/
def magnitude (x : Binary f) : Nat := x.bits.toNat % f.signBit

/-- Whether the sign bit is set. -/
def isNegative (x : Binary f) : Bool := f.signBit ≤ x.bits.toNat

/-- Whether the pattern is not a number. -/
def isNaN (x : Binary f) : Bool := f.infinity < x.magnitude

/-- Whether the number is an infinity. -/
def isInfinite (x : Binary f) : Bool := x.magnitude == f.infinity

/-- Whether the number is neither infinite nor a NaN. -/
def isFinite (x : Binary f) : Bool := x.magnitude < f.infinity

/-- The number with a given sign and pattern. -/
def ofMagnitude (negative : Bool) (magnitude : Nat) : Binary f :=
  ⟨BitVec.ofNat f.width (if negative then f.signBit + magnitude else magnitude)⟩

/-- The quiet NaN without a payload. -/
def nan : Binary f := ofMagnitude false (f.infinity + Nat.pow 2 (f.fractionBits - 1))

/-- Infinity, positive or negative. -/
def infinity (negative : Bool) : Binary f := ofMagnitude negative f.infinity

/-- Zero, positive or negative. -/
def zero (negative : Bool) : Binary f := ofMagnitude negative 0

/-- The same number without its sign. -/
def abs (x : Binary f) : Binary f := ofMagnitude false x.magnitude

/-- The same number with the other sign. -/
def neg (x : Binary f) : Binary f := ofMagnitude (!x.isNegative) x.magnitude

/-- The absolute value of a finite number, counted in least positive numbers. -/
def units (x : Binary f) : Nat := f.units x.magnitude

/-- The whole part of the absolute value of a finite number. -/
def truncate (x : Binary f) : Nat := x.units / Nat.pow 2 f.scale

/-- Numeric equality: the two zeros are equal, and a NaN is equal to nothing. -/
def same (x y : Binary f) : Bool :=
  !x.isNaN && !y.isNaN && (x.bits == y.bits || (x.magnitude == 0 && y.magnitude == 0))

/-- The number nearest to `num / den`, with a sign. -/
def ofRatio (negative : Bool) (num den : Nat) : Binary f :=
  ofMagnitude negative (f.round num den)

/-- The number nearest to an integer. -/
def ofInt (n : Int) : Binary f := ofRatio (n < 0) n.natAbs 1

/-- The nearest number of another format. -/
def convert (g : BinaryFormat) (x : Binary f) : Binary g :=
  if x.isNaN then nan
  else if x.isInfinite then infinity x.isNegative
  else ofRatio x.isNegative x.units (Nat.pow 2 f.scale)

end Binary

end QueryForest
