import QueryForest.Calendar.Time
import QueryForest.Numeric.Shortest
import QueryForest.Text.Digits

namespace QueryForest

/-!
# Printing dates and times

* years from 0 to 9999 have four digits; any other year has a sign and at least four digits;
* a fraction of a second is left out when zero and else has three, six or nine digits, the fewest
  that lose nothing;
* a leap second is written as second 60.
-/

/-- The text of a year. -/
def yearText (year : Int) : List Char :=
  if 0 ≤ year ∧ year ≤ 9999 then Digits.fixed 4 year.toNat
  else
    (if year < 0 then '-' else '+') ::
      Digits.fixed (max 4 (digitCount year.natAbs)) year.natAbs

/-- Year, month and day, with hyphens between. -/
def Date.text (d : Date) : List Char :=
  yearText d.year ++ '-' :: Digits.fixed 2 d.month ++ '-' :: Digits.fixed 2 d.day

/-- The fraction of a second behind its point. -/
def fractionText (nanosecond : Nat) : List Char :=
  if nanosecond = 0 then []
  else if nanosecond % 1000000 = 0 then '.' :: Digits.fixed 3 (nanosecond / 1000000)
  else if nanosecond % 1000 = 0 then '.' :: Digits.fixed 6 (nanosecond / 1000)
  else '.' :: Digits.fixed 9 nanosecond

/-- Hour, minute and second, with colons between, and the fraction. -/
def TimeOfDay.text (t : TimeOfDay) : List Char :=
  Digits.fixed 2 t.hour ++ ':' :: Digits.fixed 2 t.minute ++ ':' :: Digits.fixed 2 t.clockSecond ++
    fractionText t.clockNanosecond

/-- Date and time with `separator` between. -/
def DateTime.textWith (separator : Char) (t : DateTime) : List Char :=
  t.date.text ++ separator :: t.time.text

/-- Date and time with a space between. -/
def DateTime.text (t : DateTime) : List Char := t.textWith ' '

/-- The text of a time on UTC: date and time with a `T` between, and the offset zero. -/
def DateTime.utcText (t : DateTime) : List Char := t.textWith 'T' ++ "+00:00".toList

/-- The text of an offset: a sign, hours and minutes, and seconds unless they are zero. -/
def offsetText (offset : Int) : List Char :=
  let n := offset.natAbs
  (if offset < 0 then '-' else '+') :: Digits.fixed 2 (n / 3600) ++
    ':' :: Digits.fixed 2 (n / 60 % 60) ++
    (if n % 60 = 0 then [] else ':' :: Digits.fixed 2 (n % 60))

end QueryForest
