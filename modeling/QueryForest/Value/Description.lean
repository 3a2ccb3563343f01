import QueryForest.Calendar.Printer
import QueryForest.Numeric.Shortest
import QueryForest.Text.Quoted
import QueryForest.Value.Bind
import QueryForest.Value.Scalar

namespace QueryForest

/-!
# Values in messages

How a message shows a value: the name of its kind and, in brackets, `None` for NULL or `Some` with
the payload.

* floating-point numbers have the fewest digits that read back, in positional notation from 0.0001
  to below 10000000000000000 and with a power of ten otherwise;
* texts and characters are quoted, bytes are listed;
* dates and times are in the strict form, `Z` standing for UTC.
-/

namespace Description

/-- A decimal other than zero: positional, with a fraction, where the first digit stands between
the fourth place behind the point and the sixteenth before it; otherwise with a power of ten. -/
def decimal (d : Decimal) : List Char :=
  let digits := Digits.ofNat d.coefficient
  let point : Int := digits.length + d.exponent
  if -3 ≤ point ∧ point ≤ 16 then
    if point ≤ 0 then '0' :: '.' :: List.replicate (-point).toNat '0' ++ digits
    else if d.exponent ≥ 0 then digits ++ List.replicate d.exponent.toNat '0' ++ ['.', '0']
    else digits.take point.toNat ++ '.' :: digits.drop point.toNat
  else
    let fraction := digits.drop 1
    digits.take 1 ++ (if fraction.isEmpty then [] else '.' :: fraction) ++
      'e' :: Digits.ofInt (point - 1)

/-- A floating-point number. -/
def number {f : BinaryFormat} (x : Binary f) : List Char :=
  if x.isNaN then "NaN".toList
  else
    let body :=
      if x.isInfinite then "inf".toList
      else if x.magnitude = 0 then "0.0".toList
      else decimal x.shortest
    if x.isNegative then '-' :: body else body

/-- A truth value. -/
def bool (b : Bool) : List Char := if b then "true".toList else "false".toList

/-- A list of bytes. -/
def bytes (bs : List UInt8) : List Char :=
  '[' :: List.intercalate [',', ' '] (bs.map fun b => Digits.ofNat b.toNat) ++ [']']

/-- A payload that may be missing, behind the name of its kind. -/
def tagged {α : Type} (kind : String) (render : α → List Char) (value : Option α) : List Char :=
  kind.toList ++ '(' ::
    (match value with
      | none => "None".toList
      | some x => "Some(".toList ++ render x ++ [')']) ++ [')']

/-- A date and time with its offset. -/
def zoned (t : ZonedDateTime) : List Char :=
  t.clock.textWith 'T' ++ offsetText t.offset

end Description

open Description in
/-- A database value as messages show it. -/
def Scalar.description : Scalar → List Char
  | boolean v => tagged "Boolean" bool v
  | int32 v => tagged "Int32" (fun n => Digits.ofInt n.toInt) v
  | int64 v => tagged "Int64" (fun n => Digits.ofInt n.toInt) v
  | uint32 v => tagged "Uint32" (fun n => Digits.ofNat n.toNat) v
  | uint64 v => tagged "Uint64" (fun n => Digits.ofNat n.toNat) v
  | float v => tagged "Float" number v
  | double v => tagged "Double" number v
  | text v => tagged "Str" Quoted.text v
  | binary v => tagged "Binary" bytes v
  | date v => tagged "Date" Quoted.text v
  | time v => tagged "Time" Quoted.text v
  | timestamp v => tagged "Timestamp" Quoted.text v

open Description in
/-- A bind value as messages show it. -/
def BindValue.description : BindValue → List Char
  | bool v => tagged "Bool" Description.bool v
  | tinyInt v => tagged "TinyInt" (fun n => Digits.ofInt n.toInt) v
  | smallInt v => tagged "SmallInt" (fun n => Digits.ofInt n.toInt) v
  | int v => tagged "Int" (fun n => Digits.ofInt n.toInt) v
  | bigInt v => tagged "BigInt" (fun n => Digits.ofInt n.toInt) v
  | tinyUnsigned v => tagged "TinyUnsigned" (fun n => Digits.ofNat n.toNat) v
  | smallUnsigned v => tagged "SmallUnsigned" (fun n => Digits.ofNat n.toNat) v
  | unsigned v => tagged "Unsigned" (fun n => Digits.ofNat n.toNat) v
  | bigUnsigned v => tagged "BigUnsigned" (fun n => Digits.ofNat n.toNat) v
  | float v => tagged "Float" number v
  | double v => tagged "Double" number v
  | string v => tagged "String" Quoted.text v
  | char v => tagged "Char" Quoted.char v
  | bytes v => tagged "Bytes" Description.bytes v
  | date v => tagged "ChronoDate" Date.text v
  | time v => tagged "ChronoTime" TimeOfDay.text v
  | dateTime v => tagged "ChronoDateTime" (DateTime.textWith 'T') v
  | utcDateTime v => tagged "ChronoDateTimeUtc" (fun t => t.textWith 'T' ++ ['Z']) v
  | zonedDateTime v => tagged "ChronoDateTimeWithTimeZone" zoned v
  | localDateTime v => tagged "ChronoDateTimeLocal" zoned v

end QueryForest
