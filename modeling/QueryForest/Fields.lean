import QueryForest.Data.Assoc
import QueryForest.Value.Bind

namespace QueryForest

/-!
# Field assignments

The `Fields` of an insertion or an update: one value per field, in the order in which the fields
were first set.
-/

/-- Values for fields, in the order of first setting. -/
structure Fields where
  entries : List (String × BindValue)
  deriving DecidableEq

namespace Fields

/-- No assignments. -/
def empty : Fields := ⟨[]⟩

/-- Sets a field, at its old place if it was set before. -/
def set (fields : Fields) (field : String) (value : BindValue) : Fields :=
  ⟨Assoc.set field value fields.entries⟩

/-- Sets the fields of a list in order. -/
def ofList (entries : List (String × BindValue)) : Fields :=
  entries.foldl (fun fields e => fields.set e.1 e.2) empty

/-- The fields with their values, in order. -/
def toList (fields : Fields) : List (String × BindValue) := fields.entries

/-- The names of the fields, in order. -/
def names (fields : Fields) : List String := fields.entries.map Prod.fst

/-- The values of the fields, in order. -/
def values (fields : Fields) : List BindValue := fields.entries.map Prod.snd

/-- The number of fields. -/
def size (fields : Fields) : Nat := fields.entries.length

/-- Whether no field is set. -/
def isEmpty (fields : Fields) : Bool := fields.entries.isEmpty

end Fields

end QueryForest
