import QueryForest.Error

namespace QueryForest

/-!
# Models

A `Model` describes a table: its primary key, its declared fields and its relations to other
models. Models refer to each other in circles, so a relation holds the identity of its target, and
two models are the same model only if their identities agree, whatever their tables are called.

* `Model.relation?` finds the relation of a model to another;
* `Model.qualified` is the name of a field with its table.
-/

/-- A relation to the model with identity `target`, over a foreign key column. -/
structure Relation where
  target : Nat
  foreignKey : String
  deriving DecidableEq

/-- On which side of a relation the foreign key is, and how many related rows there are. -/
inductive RelationKind
  /-- Many related rows hold the key of this one. -/
  | hasMany
  /-- One related row has the same primary key. -/
  | hasOne
  /-- This row holds the key of the related one. -/
  | belongsTo
  deriving DecidableEq

/-- The description of a table. -/
structure Model where
  id : Nat
  table : String
  primaryKey : String
  fields : List String
  hasMany : List Relation
  hasOne : List Relation
  belongsTo : List Relation
  deriving DecidableEq

namespace Model

/-- Whether two descriptions are of the same model. -/
def sameAs (m n : Model) : Bool := m.id == n.id

/-- The name of a field behind the name of its table. -/
def qualified (m : Model) (field : String) : String := m.table ++ "." ++ field

/-- Whether the model declares a field. -/
def declares (m : Model) (field : String) : Bool := m.fields.contains field

/-- All relations with their kinds, in the order in which they are searched. -/
def relations (m : Model) : List (RelationKind × Relation) :=
  m.hasMany.map (.hasMany, ·) ++ m.hasOne.map (.hasOne, ·) ++ m.belongsTo.map (.belongsTo, ·)

/-- The first relation of a model to another. -/
def relation? (m related : Model) : Except ResolutionError (RelationKind × Relation) :=
  match m.relations.find? fun r => r.2.target == related.id with
  | some found => .ok found
  | none => .error (.unknownRelation m.table related.table)

end Model

end QueryForest
