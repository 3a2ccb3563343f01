import QueryForest.Model.Basic
import QueryForest.Predicate

namespace QueryForest

/-!
# Deletions

A `Delete` removes the rows of a predicate.
-/

/-- A deletion of the rows of a predicate. -/
structure Delete where
  model : Model
  predicate : Predicate

namespace Delete

/-- Starts a deletion of all rows. -/
def ofModel (model : Model) : Delete := ⟨model, .empty⟩

/-- Adds a segment to the predicate. -/
def push (s : Delete) (connective : Connective) (conditions : List Condition) : Delete :=
  { s with predicate := s.predicate.push connective conditions }

/-- Adds a condition, joined to what follows by `AND`. -/
def filter (s : Delete) (condition : Condition) : Delete := s.push .and [condition]

/-- Adds a condition, joined to what follows by `OR`. -/
def filterOr (s : Delete) (condition : Condition) : Delete := s.push .or [condition]

/-- Adds conditions that all have to hold. -/
def filterAll (s : Delete) (conditions : List Condition) : Delete := s.push .and conditions

/-- Adds conditions of which one has to hold. -/
def filterAny (s : Delete) (conditions : List Condition) : Delete := s.push .or conditions

/-- Writes the statement. -/
def build (s : Delete) : Except Error Query := do
  let condition ← s.predicate.clause
  (Sql.Fragment.ofText ("DELETE FROM ".toList ++ Sql.quoteName s.model.table.toList) ++
    condition).toQuery

end Delete

end QueryForest
