import QueryForest.Data.NameMap
import QueryForest.Model.Basic

namespace QueryForest

/-!
# Schemas

A `Schema` finds models by their tables. Registering a model for a table that has one replaces it.
-/

/-- The registered models by table. -/
structure Schema where
  models : NameMap Model

namespace Schema

/-- The schema without models. -/
def empty : Schema := ⟨NameMap.empty⟩

/-- Registers a model for its table. -/
def register (s : Schema) (m : Model) : Schema := ⟨s.models.insert m.table m⟩

/-- Registers the models of a list in order. -/
def ofList (models : List Model) : Schema := models.foldl register empty

/-- The model registered for a table. -/
def model? (s : Schema) (table : String) : Option Model := s.models.get? table

/-- The number of tables with a model. -/
def size (s : Schema) : Nat := s.models.size

/-- Whether no model is registered. -/
def isEmpty (s : Schema) : Bool := s.models.isEmpty

end Schema

end QueryForest
