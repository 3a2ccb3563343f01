import QueryForest.Calendar.Printer
import QueryForest.Value.Bind
import QueryForest.Value.Scalar

namespace QueryForest

/-!
# Bind values and database values

* `BindValue.toScalar?` gives the database value that stands for a bind value; the two kinds of
  dates with a zone of their own have none;
* `Scalar.toBind` gives a bind value for a database value, so that what was read can be bound again.
-/

/-- The database value for a bind value: integers widen to 32 bits at least, and a character, a
date or a time becomes text. -/
def BindValue.toScalar? : BindValue → Option Scalar
  | bool v => some (.boolean v)
  | tinyInt v => some (.int32 (v.map Int8.toInt32))
  | smallInt v => some (.int32 (v.map Int16.toInt32))
  | int v => some (.int32 v)
  | bigInt v => some (.int64 v)
  | tinyUnsigned v => some (.uint32 (v.map UInt8.toUInt32))
  | smallUnsigned v => some (.uint32 (v.map UInt16.toUInt32))
  | unsigned v => some (.uint32 v)
  | bigUnsigned v => some (.uint64 v)
  | float v => some (.float v)
  | double v => some (.double v)
  | string v => some (.text v)
  | char v => some (.text (v.map fun c => String.ofList [c]))
  | bytes v => some (.binary v)
  | date v => some (.date (v.map fun d => String.ofList d.text))
  | time v => some (.time (v.map fun t => String.ofList t.text))
  | dateTime v => some (.timestamp (v.map fun t => String.ofList t.text))
  | utcDateTime v => some (.timestamp (v.map fun t => String.ofList t.utcText))
  | zonedDateTime _ => none
  | localDateTime _ => none

/-- The bind value for a database value; dates and times stay text. -/
def Scalar.toBind : Scalar → BindValue
  | boolean v => .bool v
  | int32 v => .int v
  | int64 v => .bigInt v
  | uint32 v => .unsigned v
  | uint64 v => .bigUnsigned v
  | float v => .float v
  | double v => .double v
  | binary v => .bytes v
  | text v | date v | time v | timestamp v => .string v

end QueryForest
