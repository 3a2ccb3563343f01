import QueryForest.Store.LeadingNumber
import QueryForest.Store.RealText
import QueryForest.Value.Scalar

namespace QueryForest

/-!
# Stored values

The embedded store knows five kinds of values. A `StoredValue` is one of them; its text is a
sequence of bytes that need not be UTF-8.

* `Scalar.toStored` is what a database value is bound as, `StoredValue.toScalar` what is read back;
* `StoredValue.rowId?` is the row identity that a value stands for;
* `StoredValue.castText` and `StoredValue.absolute?` are two functions of the store.
-/

/-- A value of the embedded store. -/
inductive StoredValue
  | null
  | integer (value : Int64)
  | real (value : Binary64)
  | text (utf8 : List UInt8)
  | blob (bytes : List UInt8)
  deriving DecidableEq

/-- A statement failed in the store. -/
inductive StoreError
  /-- The statement is malformed or names a table that does not exist. -/
  | prepare
  /-- The parameters of a query do not fit. -/
  | query
  /-- The parameters of a change do not fit, or a constraint is violated. -/
  | execute
  /-- A row cannot be computed. -/
  | fetchRow
  /-- A text is not UTF-8. -/
  | invalidText
  /-- The database cannot be opened. -/
  | openDatabase
  deriving DecidableEq

/-- The text of a store error. -/
def StoreError.message : StoreError → String
  | prepare => "failed to prepare statement"
  | query => "failed to execute query"
  | execute => "failed to execute statement"
  | fetchRow => "failed to fetch row"
  | invalidText => "invalid UTF-8 in text value"
  | openDatabase => "failed to open SQLite database"

/-- The stored value for a database value: integers of all kinds become signed integers of 64 bits,
where the upper half of the unsigned ones wraps around. -/
def Scalar.toStored : Scalar → StoredValue
  | boolean (some b) => .integer (if b then 1 else 0)
  | int32 (some n) => .integer n.toInt64
  | int64 (some n) => .integer n
  | uint32 (some n) => .integer n.toUInt64.toInt64
  | uint64 (some n) => .integer n.toInt64
  | float (some x) => .real (x.convert .double)
  | double (some x) => .real x
  | text (some s) | date (some s) | time (some s) | timestamp (some s) =>
    .text s.toUTF8.data.toList
  | binary (some bytes) => .blob bytes
  | _ => .null

namespace StoredValue

/-- The database value for a stored value; a text must be UTF-8. -/
def toScalar : StoredValue → Except StoreError Scalar
  | null => .ok (.text none)
  | integer n => .ok (.int64 (some n))
  | real x => .ok (.double (some x))
  | text utf8 =>
    match String.fromUTF8? ⟨utf8.toArray⟩ with
    | some s => .ok (.text (some s))
    | none => .error .invalidText
  | blob bytes => .ok (.binary (some bytes))

/-- The value that a parameter has once it is bound: a NaN is NULL. -/
def bound : StoredValue → StoredValue
  | real x => if x.isNaN then null else real x
  | value => value

/-- The bytes of ASCII text as characters. -/
def ascii (bytes : List UInt8) : List Char := bytes.map fun b => Char.ofNat b.toNat

/-- The row identity that a value stands for: an integer, a floating-point number equal to one, or
a text that spells nothing but one of these. -/
def rowId? : StoredValue → Option Int64
  | integer n => some n
  | real x => LeadingNumber.int64OfBinary? x
  | text utf8 => LeadingNumber.toInteger? (ascii utf8)
  | _ => none

/-- A value as text: numbers are written out, and the bytes of a blob are taken as they are. -/
def castText : StoredValue → StoredValue
  | null => null
  | integer n => text (String.ofList (Digits.ofInt n.toInt)).toUTF8.data.toList
  | real x => text (String.ofList (RealText.render x)).toUTF8.data.toList
  | text utf8 => text utf8
  | blob bytes => text bytes

/-- The absolute value of a floating-point number; a zero keeps its sign. -/
def absoluteReal (x : Binary64) : StoredValue := real (if x.magnitude = 0 then x else x.abs)

/-- The absolute value: of an integer an integer, unless it is the smallest one, and of anything
else but NULL a floating-point number, for a text the one at its start. -/
def absolute? : StoredValue → Option StoredValue
  | null => some null
  | integer n => if n = Int64.minValue then none else some (integer n.abs)
  | real x => some (absoluteReal x)
  | text bytes | blob bytes => some (absoluteReal (LeadingNumber.read (ascii bytes)).1.toBinary)

end StoredValue

end QueryForest
