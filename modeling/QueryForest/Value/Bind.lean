import QueryForest.Calendar.Time
import QueryForest.Numeric.Binary

namespace QueryForest

/-!
# Bind values

A `BindValue` is a value as a caller configures it: in a condition, an assignment or a row to
insert. Each kind has its own NULL. There are more kinds than a database has; `Value/Conversion`
takes them to database values.
-/

/-- A configured value; `none` is the NULL of that kind. -/
inductive BindValue
  | bool (value : Option Bool)
  | tinyInt (value : Option Int8)
  | smallInt (value : Option Int16)
  | int (value : Option Int32)
  | bigInt (value : Option Int64)
  | tinyUnsigned (value : Option UInt8)
  | smallUnsigned (value : Option UInt16)
  | unsigned (value : Option UInt32)
  | bigUnsigned (value : Option UInt64)
  | float (value : Option Binary32)
  | double (value : Option Binary64)
  | string (value : Option String)
  | char (value : Option Char)
  | bytes (value : Option (List UInt8))
  | date (value : Option Date)
  | time (value : Option TimeOfDay)
  | dateTime (value : Option DateTime)
  /-- A date and time on UTC. -/
  | utcDateTime (value : Option DateTime)
  /-- A date and time with an offset from UTC. -/
  | zonedDateTime (value : Option ZonedDateTime)
  /-- A date and time in the zone of the machine, with the offset that holds there and then. -/
  | localDateTime (value : Option ZonedDateTime)
  deriving DecidableEq

end QueryForest
