import QueryForest.Calendar.Parser
import QueryForest.Forest.Record
import QueryForest.Json.Parser
import QueryForest.Value.Description

namespace QueryForest

/-!
# Typed reading of records

A `FieldType` says as what a field of a record is read, and a `FieldValue` is what comes out.

* `FieldType.fetch` reads a field; databases give integers for truth values and text for dates,
  and any integer kind for any other as long as the number fits;
* `FetchError` says why a field cannot be read, `FetchError.message` in words.
-/

/-- The type of a field of an entity. -/
inductive FieldType
  | int32
  | int64
  | uint32
  | uint64
  | bool
  | float
  | double
  | text
  | bytes
  | instant
  | date
  | json
  /-- A field that may be NULL or missing. -/
  | optional (type : FieldType)
  deriving DecidableEq

/-- The value of a field of an entity. -/
inductive FieldValue
  | int32 (value : Int32)
  | int64 (value : Int64)
  | uint32 (value : UInt32)
  | uint64 (value : UInt64)
  | bool (value : Bool)
  | float (value : Binary32)
  | double (value : Binary64)
  | text (value : String)
  | bytes (value : List UInt8)
  | instant (value : Instant)
  | date (value : Date)
  | json (value : Json)
  | absent
  | present (value : FieldValue)

/-- A field cannot be read. -/
inductive FetchError
  /-- The record has no such field. -/
  | missing (field table : String)
  /-- The field holds a value of another kind. -/
  | mismatch (field : String) (found : Scalar) (expected : String)
  /-- The integer does not fit into the type. -/
  | outOfRange (field : String) (value : Int) (type : String)
  | notAnInstant (field text : String)
  | notADate (field text : String)
  | notJson (field : String)
  /-- The record has no slot for the relation. -/
  | notLoaded (relation table : String)
  deriving DecidableEq

/-- The text of a reading error. -/
def FetchError.message : FetchError → String
  | missing field table => "missing field '" ++ field ++ "' on `" ++ table ++ "`"
  | mismatch field found expected =>
    "`" ++ field ++ "` holds " ++ String.ofList found.description ++ ", expected " ++ expected
  | outOfRange field value type =>
    "`" ++ field ++ "` value " ++ toString value ++ " is out of range for " ++ type
  | notAnInstant field text =>
    "`" ++ field ++ "`: unsupported timestamp " ++ String.ofList (Quoted.text text) ++
      ", expected RFC3339"
  | notADate field text =>
    "`" ++ field ++ "`: unsupported date " ++ String.ofList (Quoted.text text) ++
      ", expected %Y-%m-%d"
  | notJson field => "`" ++ field ++ "` is not valid JSON"
  | notLoaded relation table =>
    "relation `" ++ relation ++ "` was not loaded on `" ++ table ++ "`"

/-- The integer of a value of an integer kind. -/
def Scalar.integer? : Scalar → Option Int
  | int32 (some n) => some n.toInt
  | int64 (some n) => some n.toInt
  | uint32 (some n) => some n.toNat
  | uint64 (some n) => some n.toNat
  | _ => none

/-- The text of a value of a kind that is text. -/
def Scalar.text? : Scalar → Option String
  | text (some s) | date (some s) | time (some s) | timestamp (some s) => some s
  | _ => none

namespace Scalar

/-- Reads an integer. -/
def readInteger (field : String) (value : Scalar) : Except FetchError Int :=
  match value.integer? with
  | some n => .ok n
  | none => .error (.mismatch field value "an integer")

/-- Reads an integer between two bounds. -/
def readBounded (field type : String) (low high : Int) (value : Scalar) :
    Except FetchError Int := do
  let n ← value.readInteger field
  if low ≤ n ∧ n ≤ high then .ok n else .error (.outOfRange field n type)

/-- Reads a text. -/
def readText (field : String) (value : Scalar) : Except FetchError String :=
  match value.text? with
  | some s => .ok s
  | none => .error (.mismatch field value "text")

/-- Reads a truth value, which may be the integer zero or one. -/
def readBool (field : String) : Scalar → Except FetchError Bool
  | boolean (some b) => .ok b
  | value =>
    match value.integer? with
    | some 0 => .ok false
    | some 1 => .ok true
    | _ => .error (.mismatch field value "a boolean")

/-- Reads a number of 64 bits, the nearest one to an integer. -/
def readDouble (field : String) : Scalar → Except FetchError Binary64
  | double (some x) => .ok x
  | float (some x) => .ok (x.convert .double)
  | value => (value.readInteger field).map .ofInt

/-- Reads a number of 32 bits, the nearest one to a number of 64 bits. -/
def readFloat (field : String) : Scalar → Except FetchError Binary32
  | float (some x) => .ok x
  | value => (value.readDouble field).map (·.convert .single)

/-- Reads bytes. -/
def readBytes (field : String) : Scalar → Except FetchError (List UInt8)
  | binary (some bytes) => .ok bytes
  | value => .error (.mismatch field value "binary")

/-- Reads a point in time from its text. -/
def readInstant (field : String) (value : Scalar) : Except FetchError Instant := do
  let s ← value.readText field
  match readInstant? s.toList with
  | some instant => .ok instant
  | none => .error (.notAnInstant field s)

/-- Reads a date from its text. -/
def readDate (field : String) (value : Scalar) : Except FetchError Date := do
  let s ← value.readText field
  match readDate? s.toList with
  | some day => .ok day
  | none => .error (.notADate field s)

/-- Reads a JSON value from its text or from the bytes of its text. -/
def readJson (field : String) (value : Scalar) : Except FetchError Json :=
  let parsed (s : Option String) : Except FetchError Json :=
    match s.bind fun s => Json.read? s.toList with
    | some json => .ok json
    | none => .error (.notJson field)
  match value with
  | text (some s) => parsed (some s)
  | binary (some bytes) => parsed (String.fromUTF8? ⟨bytes.toArray⟩)
  | _ => .error (.mismatch field value "JSON text")

end Scalar

namespace FieldType

/-- Reads a value as a type; a NULL read as an optional type is an absent value. -/
def read (field : String) (value : Scalar) : FieldType → Except FetchError FieldValue
  | int32 =>
    (value.readBounded field "i32" (-2147483648) 2147483647).map (.int32 ∘ Int32.ofInt)
  | int64 =>
    (value.readBounded field "i64" (-9223372036854775808) 9223372036854775807).map
      (.int64 ∘ Int64.ofInt)
  | uint32 =>
    (value.readBounded field "u32" 0 4294967295).map fun n => .uint32 (UInt32.ofNat n.toNat)
  | uint64 =>
    (value.readBounded field "u64" 0 18446744073709551615).map fun n =>
      .uint64 (UInt64.ofNat n.toNat)
  | bool => (value.readBool field).map .bool
  | float => (value.readFloat field).map .float
  | double => (value.readDouble field).map .double
  | text => (value.readText field).map .text
  | bytes => (value.readBytes field).map .bytes
  | instant => (value.readInstant field).map .instant
  | date => (value.readDate field).map .date
  | json => (value.readJson field).map .json
  | optional type =>
    if value.isNull then .ok .absent else (read field value type).map .present

/-- Reads a field of a record: an optional one may be NULL or missing. -/
def fetch (type : FieldType) (record : Record) (field : String) : Except FetchError FieldValue :=
  match record.get? field, type with
  | some value, type => read field value type
  | none, optional _ => .ok .absent
  | none, _ => .error (.missing field record.model.table)

end FieldType

end QueryForest
