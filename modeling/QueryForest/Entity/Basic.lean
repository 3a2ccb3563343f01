import QueryForest.Entity.Fetch

namespace QueryForest

/-!
# Entities

An `Entity` is a model whose fields have types. Records of any model can be read as an entity: the
fields are found by their names.

* `Entity.read` reads a record;
* `Entity.readRelated` reads the records of the slot for the entity's table.
-/

/-- A table whose fields have types, in the order of their declaration. -/
structure Entity where
  table : String
  fields : List (String × FieldType)

namespace Entity

/-- Reads fields in order; the first that cannot be read is the error. -/
def readFields (record : Record) :
    List (String × FieldType) → Except FetchError (List (String × FieldValue))
  | [] => .ok []
  | (field, type) :: rest => do
    let value ← type.fetch record field
    let others ← readFields record rest
    .ok ((field, value) :: others)

/-- Reads a record as an entity. -/
def read (e : Entity) (record : Record) : Except FetchError (List (String × FieldValue)) :=
  readFields record e.fields

/-- Reads the related records of a record as entities. -/
def readRelated (e : Entity) (record : Record) :
    Except FetchError (List (List (String × FieldValue))) :=
  match record.related? e.table with
  | some records => records.mapM e.read
  | none => .error (.notLoaded e.table record.model.table)

end Entity

end QueryForest
