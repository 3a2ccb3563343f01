namespace QueryForest

/-!
# Dates

Days of the Gregorian calendar, continued in both directions, with a year zero.

* `Date` is a day that exists; `Date.ofYmd?` builds one;
* `Date.dayNumber` counts days from the first of January 1970.
-/

/-- Every fourth year is a leap year, but of the full centuries only every fourth. -/
def isLeapYear (year : Int) : Bool :=
  year % 4 = 0 && (year % 100 ≠ 0 || year % 400 = 0)

/-- The number of days of a month; there are none in a month that does not exist. -/
def daysInMonth (year : Int) (month : Nat) : Nat :=
  match month with
  | 1 | 3 | 5 | 7 | 8 | 10 | 12 => 31
  | 4 | 6 | 9 | 11 => 30
  | 2 => if isLeapYear year then 29 else 28
  | _ => 0

/-- The first year of the calendar's range. -/
def firstYear : Int := -262143

/-- The last year of the calendar's range. -/
def lastYear : Int := 262142

/-- A day of the calendar. -/
structure Date where
  year : Int
  month : Nat
  day : Nat
  year_in_range : firstYear ≤ year ∧ year ≤ lastYear
  day_exists : 1 ≤ day ∧ day ≤ daysInMonth year month
  deriving DecidableEq

namespace Date

/-- The day with these fields, if there is one in range. -/
def ofYmd? (year : Int) (month day : Nat) : Option Date :=
  if hy : firstYear ≤ year ∧ year ≤ lastYear then
    if hd : 1 ≤ day ∧ day ≤ daysInMonth year month then some ⟨year, month, day, hy, hd⟩ else none
  else none

/-- The days from the first of January of year 1 to that of `year`. -/
def daysBeforeYear (year : Int) : Int :=
  let y := year - 1
  365 * y + y / 4 - y / 100 + y / 400

/-- The days from the first of January to the first day of `month` in the same year. -/
def daysBeforeMonth (year : Int) (month : Nat) : Nat :=
  ((List.range (month - 1)).map fun m => daysInMonth year (m + 1)).foldl (· + ·) 0

/-- The days from the first of January 1970 to the given day, negative for earlier days. -/
def dayNumber (d : Date) : Int :=
  -- 719162 days lie between the first of January of year 1 and that of 1970
  daysBeforeYear d.year + daysBeforeMonth d.year d.month + d.day - 1 - 719162

/-- Taking a day apart and putting it together again gives the day. -/
@[simp] theorem ofYmd?_fields (d : Date) : ofYmd? d.year d.month d.day = some d := by
  unfold ofYmd?
  rw [dif_pos d.year_in_range, dif_pos d.day_exists]

end Date

end QueryForest
