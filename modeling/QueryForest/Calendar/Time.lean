import QueryForest.Calendar.Date

namespace QueryForest

/-!
# Times of day and points in time

* `TimeOfDay` is a wall-clock time; a leap second is a second with a thousand million nanoseconds or
  more, as a rule the last one of a minute;
* `DateTime` is a day with a time of day, `ZonedDateTime` has an offset from UTC as well;
* `Instant` is a point in time, counted from the start of 1970 in UTC.
-/

/-- A time of day to the nanosecond. -/
structure TimeOfDay where
  hour : Nat
  minute : Nat
  second : Nat
  nanosecond : Nat
  in_range : hour < 24 ∧ minute < 60 ∧ second < 60 ∧ nanosecond < 2000000000
  deriving DecidableEq

namespace TimeOfDay

/-- The time with these fields, if there is one; a leap second must be the last one of a minute. -/
def ofHms? (hour minute second nanosecond : Nat) : Option TimeOfDay :=
  if h : hour < 24 ∧ minute < 60 ∧ second < 60 ∧ nanosecond < 2000000000 then
    if 1000000000 ≤ nanosecond → second = 59 then some ⟨hour, minute, second, nanosecond, h⟩
    else none
  else none

/-- The time as a clock shows it: second 60 stands for a leap second. -/
def ofClock? (hour minute second nanosecond : Nat) : Option TimeOfDay :=
  if second = 60 then ofHms? hour minute 59 (nanosecond + 1000000000)
  else ofHms? hour minute second nanosecond

/-- The second that a clock shows: 60 in the leap second of a minute, and in a leap second elsewhere
the second after it. -/
def clockSecond (t : TimeOfDay) : Nat :=
  if 1000000000 ≤ t.nanosecond then t.second + 1 else t.second

/-- The nanoseconds within the second that a clock shows. -/
def clockNanosecond (t : TimeOfDay) : Nat :=
  if 1000000000 ≤ t.nanosecond then t.nanosecond - 1000000000 else t.nanosecond

/-- The seconds since midnight. -/
def secondOfDay (t : TimeOfDay) : Nat := (t.hour * 60 + t.minute) * 60 + t.second

end TimeOfDay

/-- A day and a time of day. -/
structure DateTime where
  date : Date
  time : TimeOfDay
  deriving DecidableEq

/-- A day and a time of day where clocks are `offset` seconds ahead of UTC. -/
structure ZonedDateTime where
  clock : DateTime
  offset : Int
  deriving DecidableEq

/-- A point in time: seconds from the start of 1970 in UTC, and nanoseconds, of which a leap second
has a thousand million or more. -/
structure Instant where
  seconds : Int
  nanosecond : Nat
  deriving DecidableEq

/-- The point in time when clocks `offset` seconds ahead of UTC show the date and time. -/
def DateTime.instantAt (offset : Int) (t : DateTime) : Instant :=
  ⟨t.date.dayNumber * 86400 + t.time.secondOfDay - offset, t.time.nanosecond⟩

/-- The point in time when clocks on UTC show the date and time. -/
def DateTime.instant (t : DateTime) : Instant := t.instantAt 0

end QueryForest
