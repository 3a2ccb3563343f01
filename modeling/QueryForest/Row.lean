import QueryForest.Data.NameMap
import QueryForest.Value.Scalar

namespace QueryForest

/-!
# Rows

A `Row` is what a database returns: named values in column order, in which a name may occur more
than once. A `RawRow` has one entry per name.

* `Row.fetch .assoc` keeps the last value of each name;
* `Row.fetch .named` keeps all values of a name, in column order.
-/

/-- A row of a result: named values in column order. -/
structure Row where
  fields : List (String × Scalar)
  deriving DecidableEq

/-- What a row holds under one name. -/
inductive Column
  /-- The value that every table with such a column reads. -/
  | scalar (value : Scalar)
  /-- One value for each occurrence of the name, in column order. -/
  | perOccurrence (values : List Scalar)
  deriving DecidableEq

/-- The first value of a column. -/
def Column.first? : Column → Option Scalar
  | scalar value => some value
  | perOccurrence values => values.head?

/-- The number of occurrences of a column. -/
def Column.occurrences : Column → Nat
  | scalar _ => 1
  | perOccurrence values => values.length

/-- A row with one column per name. -/
abbrev RawRow := NameMap Column

/-- What becomes of names that occur more than once. -/
inductive FetchMode
  /-- The last value stays. -/
  | assoc
  /-- All values stay. -/
  | named
  deriving DecidableEq

/-- A column with one more occurrence. -/
def Column.extend (value : Scalar) : Option Column → Column
  | none => scalar value
  | some (scalar earlier) => perOccurrence [earlier, value]
  | some (perOccurrence earlier) => perOccurrence (earlier ++ [value])

/-- Enters one field of a row. -/
def RawRow.enter (mode : FetchMode) (row : RawRow) (field : String × Scalar) : RawRow :=
  match mode with
  | .assoc => row.insert field.1 (.scalar field.2)
  | .named => row.insert field.1 (Column.extend field.2 (row.get? field.1))

/-- The columns of a row by name. -/
def Row.fetch (mode : FetchMode) (row : Row) : RawRow :=
  row.fields.foldl (RawRow.enter mode) NameMap.empty

end QueryForest
