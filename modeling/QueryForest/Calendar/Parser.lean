import QueryForest.Calendar.Time
import QueryForest.Text.Blank
import QueryForest.Text.Digits

namespace QueryForest

/-!
# Reading dates and times

Two forms are read, over characters, each to the end of the text:

* `readInstant?` takes the strict form with an offset (`2024-01-15T10:30:45.5+01:00`) and, where
  that fails, the loose form without one, as UTC (`2024-01-15 10:30:45.5`);
* `readDate?` takes the loose form of a date.

In the loose forms every number may have white space in front and fewer digits than usual, a year
may have a sign and then any number of digits, and any white space may stand for the space.
-/

namespace Calendar

/-- Reads one given character. -/
def literal (c : Char) : List Char → Option (List Char)
  | d :: rest => if d = c then some rest else none
  | [] => none

/-- Reads the digits behind the point of a second: at least one, of which nine count. -/
def fraction (cs : List Char) : Option (Nat × List Char) :=
  let (ds, rest) := Digits.span 9 cs
  if ds.isEmpty then none
  else some (Digits.value ds * Nat.pow 10 (9 - ds.length), rest.dropWhile Char.isDigit)

/-- Reads a fraction of a second with its point; without a point there is none. -/
def optionalFraction : List Char → Option (Nat × List Char)
  | '.' :: rest => fraction rest
  | cs => some (0, cs)

/-- Reads the separator between date and time in the strict form. -/
def dateTimeSeparator : List Char → Option (List Char)
  | c :: rest => if c = 'T' ∨ c = 't' ∨ c = ' ' then some rest else none
  | [] => none

/-- Reads an offset in seconds: `Z`, or a sign (hyphen or minus sign), hours and minutes. -/
def offset : List Char → Option (Int × List Char)
  | c :: rest =>
    if c = 'Z' ∨ c = 'z' then some (0, rest)
    else if c = '+' ∨ c = '-' ∨ c = '\u2212' then do
      let (hours, rest) ← Digits.take? 2 2 rest
      let rest ← literal ':' rest
      let (minutes, rest) ← Digits.take? 2 2 rest
      if hours < 24 ∧ minutes < 60 then
        let seconds : Int := (hours * 60 + minutes) * 60
        some (if c = '+' then seconds else -seconds, rest)
      else none
    else none
  | [] => none

/-- Reads the strict form: four digits for the year, two for all else, and an offset. -/
def strict (cs : List Char) : Option Instant := do
  let (year, cs) ← Digits.take? 4 4 cs
  let cs ← literal '-' cs
  let (month, cs) ← Digits.take? 2 2 cs
  let cs ← literal '-' cs
  let (day, cs) ← Digits.take? 2 2 cs
  let cs ← dateTimeSeparator cs
  let (hour, cs) ← Digits.take? 2 2 cs
  let cs ← literal ':' cs
  let (minute, cs) ← Digits.take? 2 2 cs
  let cs ← literal ':' cs
  let (second, cs) ← Digits.take? 2 2 cs
  let (nanosecond, cs) ← optionalFraction cs
  let (offset, cs) ← offset cs
  if cs.isEmpty then
    let date ← Date.ofYmd? year month day
    let time ← TimeOfDay.ofClock? hour minute second nanosecond
    some (DateTime.instantAt offset ⟨date, time⟩)
  else none

/-- Reads a number of one or two digits behind white space. -/
def looseNumber (cs : List Char) : Option (Nat × List Char) :=
  Digits.take? 1 2 (skipBlank cs)

/-- Reads a year behind white space: up to four digits, or any number of them behind a sign. -/
def looseYear (cs : List Char) : Option (Int × List Char) :=
  match skipBlank cs with
  | '-' :: rest => (Digits.take? 1 rest.length rest).map fun (n, rest) => (-(n : Int), rest)
  | '+' :: rest => (Digits.take? 1 rest.length rest).map fun (n, rest) => ((n : Int), rest)
  | cs => (Digits.take? 1 4 cs).map fun (n, rest) => ((n : Int), rest)

/-- Reads the loose form of a date. -/
def looseDate (cs : List Char) : Option (Date × List Char) := do
  let (year, cs) ← looseYear cs
  let cs ← literal '-' cs
  let (month, cs) ← looseNumber cs
  let cs ← literal '-' cs
  let (day, cs) ← looseNumber cs
  let date ← Date.ofYmd? year month day
  some (date, cs)

/-- Reads the loose form of a time of day. -/
def looseTime (cs : List Char) : Option (TimeOfDay × List Char) := do
  let (hour, cs) ← looseNumber cs
  let cs ← literal ':' cs
  let (minute, cs) ← looseNumber cs
  let cs ← literal ':' cs
  let (second, cs) ← looseNumber cs
  let (nanosecond, cs) ← optionalFraction cs
  let time ← TimeOfDay.ofClock? hour minute second nanosecond
  some (time, cs)

/-- Reads the loose form of a date and time. -/
def looseDateTime (cs : List Char) : Option DateTime := do
  let (date, cs) ← looseDate cs
  let (time, cs) ← looseTime (skipBlank cs)
  if cs.isEmpty then some ⟨date, time⟩ else none

end Calendar

/-- Reads a point in time: the strict form, else the loose form on UTC. -/
def readInstant? (cs : List Char) : Option Instant :=
  Calendar.strict cs <|> (Calendar.looseDateTime cs).map DateTime.instant

/-- Reads a date in the loose form. -/
def readDate? (cs : List Char) : Option Date := do
  let (date, cs) ← Calendar.looseDate cs
  if cs.isEmpty then some date else none

end QueryForest
