import QueryForest.Fields
import QueryForest.Model.Basic
import QueryForest.Sql.Fragment
import QueryForest.Sql.Identifier

namespace QueryForest

/-!
# Insertions

An `Insert` adds one row to a model's table. It starts from at least one field.

* `Sql.insertion?` is the statement for a table, its columns and their values, of which there must
  be one for each column;
* `Insert.build` writes it for the fields of an insertion.
-/

namespace Sql

/-- The statement of an insertion: the columns, and a mark for each value. -/
def insertion (table : String) (names : List String) (values : List BindValue) : Fragment :=
  .ofText ("INSERT INTO ".toList ++ quoteName table.toList ++ " (".toList ++
    List.intercalate [',', ' '] (names.map fun name => quoteName name.toList) ++
      ") VALUES (".toList) ++ .joinWith ", " (values.map .parameter) ++ .ofString ")"

/-- The statement of an insertion, unless it has a different number of columns and values. -/
def insertion? (table : String) (names : List String) (values : List BindValue) :
    Except Error Fragment :=
  if names.length = values.length then .ok (insertion table names values)
  else .error (.valueCount names.length values.length)

end Sql

/-- An insertion of one row. -/
structure Insert where
  model : Model
  fields : Fields

namespace Insert

/-- Starts an insertion, unless there are no fields. -/
def ofFields (model : Model) (fields : Fields) : Except Error Insert :=
  if fields.isEmpty then .error (.configuration (.emptyFieldList "INSERT" model.table))
  else .ok ⟨model, fields⟩

/-- Sets a field. -/
def set (s : Insert) (field : String) (value : BindValue) : Insert :=
  { s with fields := s.fields.set field value }

/-- The columns of the statement. -/
def columns (s : Insert) : List (List Char) :=
  s.fields.names.map fun name => Sql.quoteName name.toList

/-- Writes the statement. -/
def build (s : Insert) : Except Error Query := do
  let written ← Sql.insertion? s.model.table s.fields.names s.fields.values
  written.toQuery

end Insert

end QueryForest
