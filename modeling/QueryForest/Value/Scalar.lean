import QueryForest.Numeric.Binary

namespace QueryForest

/-!
# Database values

A `Scalar` is a value that a database takes or gives back. Each kind has its own NULL, and dates
and times travel as text.

* `Scalar.isNull` tells the NULLs;
* `Scalar.same` is equality of values: of one kind, with numbers compared as numbers, and with the
  NULLs of a kind equal.
-/

/-- A value of a column or of a statement's parameter; `none` is the NULL of that kind. -/
inductive Scalar
  | boolean (value : Option Bool)
  | int32 (value : Option Int32)
  | int64 (value : Option Int64)
  | uint32 (value : Option UInt32)
  | uint64 (value : Option UInt64)
  | float (value : Option Binary32)
  | double (value : Option Binary64)
  | text (value : Option String)
  | binary (value : Option (List UInt8))
  | date (value : Option String)
  | time (value : Option String)
  | timestamp (value : Option String)
  deriving DecidableEq

namespace Scalar

/-- Whether a value is a NULL of any kind. -/
def isNull : Scalar → Bool
  | boolean none | int32 none | int64 none | uint32 none | uint64 none | float none | double none
  | text none | binary none | date none | time none | timestamp none => true
  | _ => false

/-- Equality of the payloads of two floating-point values, NULLs included. -/
def sameNumber {f : BinaryFormat} : Option (Binary f) → Option (Binary f) → Bool
  | some x, some y => x.same y
  | none, none => true
  | _, _ => false

/-- Equality of values: floating-point payloads compare as numbers, so that the two zeros are equal
and a NaN is not equal to itself; all else compares as it stands. -/
def same : Scalar → Scalar → Bool
  | float x, float y => sameNumber x y
  | double x, double y => sameNumber x y
  | x, y => x == y

end Scalar

end QueryForest
