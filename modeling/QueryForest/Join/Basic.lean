import QueryForest.Model.Basic

namespace QueryForest

/-!
# Joins

A `Join` asks for a related model and for further relations of it. `plan` resolves a tree of joins
against the relations of the models, depth first, and every table may take part only once.

* `PlannedJoin.resolve` turns one relation into a join of two tables;
* `plan` gives one planned join per node, each node before the nodes below it.
-/

/-- A request for a related model, with the requests for relations of that model. -/
structure Join where
  model : Model
  nested : List Join

/-- Whether rows without a partner stay. -/
inductive JoinKind
  | inner
  | left
  deriving DecidableEq

/-- A join of a model's table on the equality of two columns, each with its table. -/
structure PlannedJoin where
  model : Model
  relation : RelationKind
  kind : JoinKind
  left : String × String
  right : String × String
  deriving DecidableEq

/-- The join that follows the relation of a model to another. -/
def PlannedJoin.resolve (parent related : Model) : Except ResolutionError PlannedJoin := do
  let (kind, relation) ← parent.relation? related
  match kind with
  | .hasMany =>
    .ok ⟨related, kind, .left, (parent.table, parent.primaryKey),
      (related.table, relation.foreignKey)⟩
  | .hasOne =>
    .ok ⟨related, kind, .inner, (parent.table, parent.primaryKey),
      (related.table, related.primaryKey)⟩
  | .belongsTo =>
    .ok ⟨related, kind, .left, (parent.table, relation.foreignKey),
      (related.table, related.primaryKey)⟩

namespace Join

/-- The tables of a list of planned joins. -/
def tablesOf (planned : List PlannedJoin) : List String := planned.map (·.model.table)

mutual

/-- Plans a join and the joins below it, where the tables in `seen` are taken. -/
def planOne (parent : Model) (seen : List String) :
    Join → Except ResolutionError (List PlannedJoin)
  | ⟨model, nested⟩ => do
    let here ← PlannedJoin.resolve parent model
    if seen.contains model.table then .error (.ambiguousJoin model.table)
    else do
      let below ← planAll model (seen ++ [model.table]) nested
      .ok (here :: below)

/-- Plans joins of one model in order, where the tables in `seen` are taken. -/
def planAll (parent : Model) (seen : List String) :
    List Join → Except ResolutionError (List PlannedJoin)
  | [] => .ok []
  | join :: rest => do
    let first ← planOne parent seen join
    let others ← planAll parent (seen ++ tablesOf first) rest
    .ok (first ++ others)

end

end Join

/-- The joins of a query on `base`: each node of the trees before the nodes below it, and those
before the node after it. -/
def plan (base : Model) (joins : List Join) : Except ResolutionError (List PlannedJoin) :=
  Join.planAll base [base.table] joins

end QueryForest
