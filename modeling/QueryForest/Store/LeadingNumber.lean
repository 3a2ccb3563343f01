import QueryForest.Numeric.Compensated
import QueryForest.Text.Digits

namespace QueryForest

/-!
# Numbers at the start of a text

The embedded store takes a text for a number by what stands in front of it: blanks, a sign, digits
with or without a point, and a power of ten.

* `LeadingNumber.read` reads the parts of such a number, and what stands behind it;
* `LeadingNumber.toBinary` is the floating-point number for it: the digits that fit into 64 bits,
  times the power of ten, in arithmetic with a correction, so that the last bit need not be right;
* `LeadingNumber.toInteger?` is the integer of 64 bits that a text is equal to.
-/

/-- The parts of a number: its sign, the digits before and behind the point, the power of ten, and
whether it is written without point and power. -/
structure LeadingNumber where
  negative : Bool
  whole : List Char
  fraction : List Char
  power : Int
  plain : Bool
  deriving DecidableEq

namespace LeadingNumber

/-- Whether a character is a blank in front of or behind a number. -/
def isBlank (c : Char) : Bool :=
  c = ' ' || c = '\t' || c = '\n' || c = '\x0b' || c = '\x0c' || c = '\r'

/-- Reads a sign, if there is one. -/
def readSign : List Char → Bool × List Char
  | '-' :: rest => (true, rest)
  | '+' :: rest => (false, rest)
  | cs => (false, cs)

/-- The number that the digits of a power spell; behind ten thousand another digit makes it ten
thousand again. -/
def powerOfDigits (ds : List Char) : Nat :=
  ds.foldl (fun n d => if n < 10000 then 10 * n + (d.toNat - 48) else 10000) 0

/-- Reads the power of ten behind a number, if there is one. -/
def readPower? : List Char → Option (Int × List Char)
  | c :: rest =>
    if c = 'e' ∨ c = 'E' then
      let (negative, rest) := readSign rest
      let ds := rest.takeWhile Char.isDigit
      let n : Int := powerOfDigits ds
      if ds.isEmpty then none
      else some (if negative then -n else n, rest.dropWhile Char.isDigit)
    else none
  | [] => none

/-- Reads the number at the start of a text, behind blanks; it may have no digits. -/
def read (cs : List Char) : LeadingNumber × List Char :=
  let (negative, cs) := readSign (cs.dropWhile isBlank)
  let whole := cs.takeWhile Char.isDigit
  let cs := cs.dropWhile Char.isDigit
  let (point, fraction, cs) := match cs with
    | '.' :: rest => (true, rest.takeWhile Char.isDigit, rest.dropWhile Char.isDigit)
    | cs => (false, [], cs)
  match (if whole.isEmpty && fraction.isEmpty then none else readPower? cs) with
  | some (power, rest) => (⟨negative, whole, fraction, power, false⟩, rest)
  | none => (⟨negative, whole, fraction, 0, !point⟩, cs)

/-- Whether there are any digits. -/
def hasDigits (n : LeadingNumber) : Bool := !n.whole.isEmpty || !n.fraction.isEmpty

/-- Gathers digits behind the number `n` until another one might not fit into 64 bits, and counts
the digits that are left out. -/
def gather (n : Nat) : List Char → Nat × Nat
  | [] => (n, 0)
  | d :: ds =>
    if n < (Nat.pow 2 64 - 10) / 10 then gather (10 * n + (d.toNat - 48)) ds else (n, ds.length + 1)

/-- Moves places of a positive power of ten into a number, as long as it stays within 64 bits. -/
def raise (n : Nat) : Nat → Nat × Nat
  | 0 => (n, 0)
  | power + 1 => if n < (Nat.pow 2 64 - 2048) / 10 then raise (10 * n) power else (n, power + 1)

/-- Cancels zeros at the end of a number against places of a negative power of ten. -/
def cancel (n : Nat) : Nat → Nat × Nat
  | 0 => (n, 0)
  | power + 1 => if n % 10 = 0 then cancel (n / 10) power else (n, power + 1)

/-- A number of 64 bits. The correction is left out where the nearest floating-point number is
larger than all of them. -/
def widen (n : Nat) : Compensated .double :=
  let x : Compensated .double := .ofRatio n 1
  if x.head.truncate < Nat.pow 2 64 then x else .ofBinary x.head

/-- The floating-point number; what is too large is infinite. -/
def toBinary (n : LeadingNumber) : Binary64 :=
  let (digits, leftOut) := gather 0 (n.whole ++ n.fraction)
  if digits = 0 then .zero n.negative
  else
    let (digits, power) : Nat × Int := match n.power + leftOut - n.fraction.length with
      | .ofNat power =>
        let (digits, power) := raise digits power
        (digits, power)
      | .negSucc power =>
        let (digits, power) := cancel digits (power + 1)
        (digits, -power)
    let x := ((widen digits).scale power).value
    let x := if x.isNaN then .infinity false else x
    if n.negative then x.neg else x

/-- An integer as one of 64 bits, if it fits. -/
def int64? (n : Int) : Option Int64 :=
  if -9223372036854775808 ≤ n ∧ n ≤ 9223372036854775807 then some (Int64.ofInt n) else none

/-- The integer equal to a floating-point number, if there is one of 64 bits above the smallest. -/
def int64OfBinary? (x : Binary64) : Option Int64 :=
  let n : Int := x.truncate
  if x.isFinite && x.units % Nat.pow 2 BinaryFormat.double.scale = 0 && n < 9223372036854775808 then
    some (Int64.ofInt (if x.isNegative then -n else n))
  else none

/-- The integer of 64 bits that a text is equal to: the text is a number between blanks, written
without point and power, or its floating-point number is that integer. -/
def toInteger? (cs : List Char) : Option Int64 :=
  let (n, rest) := read cs
  if !n.hasDigits || !rest.all isBlank then none
  else if n.plain then
    let value : Int := Digits.value n.whole
    int64? (if n.negative then -value else value)
  else int64OfBinary? n.toBinary

end LeadingNumber

end QueryForest
