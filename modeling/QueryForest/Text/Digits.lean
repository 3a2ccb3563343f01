namespace QueryForest.Digits

/-!
# Decimal digits

* `fixed` writes a number with a given number of digits, zeros in front;
* `span` reads at most a given number of digits, `value` is the number they spell.
-/

/-- The digit of a number below ten. -/
def digit (n : Nat) : Char := Char.ofNat (48 + n)

/-- The last `width` decimal digits of `n`. -/
def fixed : Nat → Nat → List Char
  | 0, _ => []
  | width + 1, n => fixed width (n / 10) ++ [digit (n % 10)]

/-- Splits off the digits in front, at most `max` of them. -/
def span : Nat → List Char → List Char × List Char
  | 0, cs => ([], cs)
  | _ + 1, [] => ([], [])
  | max + 1, c :: cs =>
    if c.isDigit then
      let (ds, rest) := span max cs
      (c :: ds, rest)
    else ([], c :: cs)

/-- The number that a list of digits spells. -/
def value (ds : List Char) : Nat :=
  ds.foldl (fun n c => 10 * n + (c.toNat - 48)) 0

/-- Reads at least `min` and at most `max` digits. -/
def take? (min max : Nat) (cs : List Char) : Option (Nat × List Char) :=
  let (ds, rest) := span max cs
  if min ≤ ds.length then some (value ds, rest) else none

/-- The decimal digits of a natural number. -/
def ofNat (n : Nat) : List Char := Nat.toDigits 10 n

/-- The decimal digits of an integer, with a minus sign in front of a negative one. -/
def ofInt : Int → List Char
  | .ofNat n => ofNat n
  | .negSucc n => '-' :: ofNat (n + 1)

/-- The lower-case hexadecimal digits of a natural number. -/
def hexOfNat (n : Nat) : List Char := Nat.toDigits 16 n

end QueryForest.Digits
