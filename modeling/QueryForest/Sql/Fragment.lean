import QueryForest.Error
import QueryForest.Sql.Placeholder
import QueryForest.Value.Conversion
import QueryForest.Value.Description

namespace QueryForest

/-!
# Fragments and queries

A `Sql.Fragment` is SQL text with the values of its placeholders; fragments are put together by
`++`. A `Query` is what is sent: the text and one database value per placeholder.

* `Sql.Fragment.bound` fills the placeholders of a fragment that came from elsewhere;
* `Sql.Fragment.toQuery` takes the values to database values.
-/

namespace Sql

/-- SQL text and the values of its placeholders, in order. -/
structure Fragment where
  text : List Char
  values : List BindValue

namespace Fragment

/-- Text without placeholders. -/
def ofText (text : List Char) : Fragment := ⟨text, []⟩

/-- Text without placeholders. -/
def ofString (text : String) : Fragment := ⟨text.toList, []⟩

/-- A placeholder with its value. -/
def parameter (value : BindValue) : Fragment := ⟨['?'], [value]⟩

/-- One fragment behind another. -/
def append (a b : Fragment) : Fragment := ⟨a.text ++ b.text, a.values ++ b.values⟩

instance : Append Fragment := ⟨append⟩

/-- The text of two fragments. -/
@[simp] theorem text_append (a b : Fragment) : (a ++ b).text = a.text ++ b.text := rfl

/-- The values of two fragments. -/
@[simp] theorem values_append (a b : Fragment) : (a ++ b).values = a.values ++ b.values := rfl

/-- Fragments with `separator` between them. -/
def joinWith (separator : String) : List Fragment → Fragment
  | [] => ofText []
  | [a] => a
  | a :: rest => a ++ ofString separator ++ joinWith separator rest

/-- Fills the placeholders of a fragment with its values. -/
def bound (a : Fragment) : Except Error Fragment :=
  match fillMarks a.text a.values with
  | some (text, values) => .ok ⟨text, values⟩
  | none => .error .unboundPlaceholder

end Fragment

end Sql

/-- A statement as it is sent: its text and the values of its placeholders. -/
structure Query where
  sql : String
  params : List Scalar
  deriving DecidableEq

/-- The database value of a bind value, or an error that shows a value without one. -/
def BindValue.toScalar (value : BindValue) : Except ConfigurationError Scalar :=
  match value.toScalar? with
  | some scalar => .ok scalar
  | none => .error (.unsupportedValue (String.ofList value.description))

/-- The database values of a list of bind values; the first value without one is the error. -/
def scalarsOf (values : List BindValue) : Except ConfigurationError (List Scalar) :=
  values.mapM BindValue.toScalar

/-- The query of a whole statement. -/
def Sql.Fragment.toQuery (a : Sql.Fragment) : Except Error Query :=
  match scalarsOf a.values with
  | .ok params => .ok ⟨String.ofList a.text, params⟩
  | .error cause => .error (.configuration cause)

end QueryForest
