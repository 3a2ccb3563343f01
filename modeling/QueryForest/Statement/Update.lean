import QueryForest.Fields
import QueryForest.Model.Basic
import QueryForest.Predicate

namespace QueryForest

/-!
# Updates

An `Update` sets fields in the rows of a predicate. It starts from at least one field.
-/

/-- An update of the rows of a predicate. -/
structure Update where
  model : Model
  fields : Fields
  predicate : Predicate

namespace Update

/-- Starts an update of all rows, unless there are no fields. -/
def ofFields (model : Model) (fields : Fields) : Except Error Update :=
  if fields.isEmpty then .error (.configuration (.emptyFieldList "UPDATE" model.table))
  else .ok ⟨model, fields, .empty⟩

/-- Sets a field. -/
def set (s : Update) (field : String) (value : BindValue) : Update :=
  { s with fields := s.fields.set field value }

/-- Adds a segment to the predicate. -/
def push (s : Update) (connective : Connective) (conditions : List Condition) : Update :=
  { s with predicate := s.predicate.push connective conditions }

/-- Adds a condition, joined to what follows by `AND`. -/
def filter (s : Update) (condition : Condition) : Update := s.push .and [condition]

/-- Adds a condition, joined to what follows by `OR`. -/
def filterOr (s : Update) (condition : Condition) : Update := s.push .or [condition]

/-- Adds conditions that all have to hold. -/
def filterAll (s : Update) (conditions : List Condition) : Update := s.push .and conditions

/-- Adds conditions of which one has to hold. -/
def filterAny (s : Update) (conditions : List Condition) : Update := s.push .or conditions

/-- The assignment of one field. -/
def assignment (entry : String × BindValue) : Sql.Fragment :=
  .ofText (Sql.quoteName entry.1.toList ++ " = ".toList) ++ .parameter entry.2

/-- Writes the statement. -/
def build (s : Update) : Except Error Query := do
  let condition ← s.predicate.clause
  (Sql.Fragment.ofText
      ("UPDATE ".toList ++ Sql.quoteName s.model.table.toList ++ " SET ".toList) ++
    .joinWith ", " (s.fields.toList.map assignment) ++ condition).toQuery

end Update

end QueryForest
