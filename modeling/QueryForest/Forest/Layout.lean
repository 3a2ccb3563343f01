import QueryForest.Forest.Record
import QueryForest.Join.Basic
import QueryForest.Row

namespace QueryForest

/-!
# Layouts

The tables of a query stand in a fixed order: the base table, then the joined tables as they were
planned. A column name that several tables declare occurs once for each of them in a row, so that
the value of a column for the table at position `p` is the occurrence with the number of tables
before `p` that declare the column.

* `Node` is a requested model with its position; `Node.ofJoins` numbers the nodes of the request;
* `Layout.ofJoins` plans a query and lays it out;
* `Layout.value` reads a column for a table, `Layout.record` all declared fields of it.
-/

/-- A requested model at its position among the tables, with the requests below it. -/
structure Node where
  model : Model
  position : Nat
  nested : List Node

namespace Node

mutual

/-- Numbers a join and the joins below it from `next` on, and gives the first number left. -/
def ofJoin (next : Nat) : Join → Node × Nat
  | ⟨model, nested⟩ =>
    let (below, free) := ofJoins (next + 1) nested
    (⟨model, next, below⟩, free)

/-- Numbers joins in order from `next` on, and gives the first number left. -/
def ofJoins (next : Nat) : List Join → List Node × Nat
  | [] => ([], next)
  | join :: rest =>
    let (node, free) := ofJoin next join
    let (nodes, free) := ofJoins free rest
    (node :: nodes, free)

end

end Node

/-- The tables of a query in their order, and the tree of the requested models. -/
structure Layout where
  tables : List Model
  root : Node

namespace Layout

/-- Plans a query and lays it out. -/
def ofJoins (base : Model) (joins : List Join) : Except ResolutionError Layout := do
  let planned ← plan base joins
  .ok ⟨base :: planned.map (·.model), ⟨base, 0, (Node.ofJoins 1 joins).1⟩⟩

/-- The number of tables before a position that declare a column. -/
def occurrence (layout : Layout) (position : Nat) (column : String) : Nat :=
  (layout.tables.take position).countP (·.declares column)

/-- The value of a column for the table of a node, if the row has such a column. -/
def value (layout : Layout) (row : RawRow) (node : Node) (column : String) :
    Except ResolutionError (Option Scalar) :=
  match row.get? column with
  | none => .ok none
  | some (.scalar value) => .ok (some value)
  | some (.perOccurrence values) =>
    -- one occurrence belongs to each table that declares the column
    let index := layout.occurrence node.position column
    match values[index]? with
    | some value => .ok (some value)
    | none => .error (.missingOccurrence column node.model.table index values.length)

/-- The values that a row has for fields of the table of a node. -/
def values (layout : Layout) (row : RawRow) (node : Node) :
    List String → Except ResolutionError (List (String × Scalar))
  | [] => .ok []
  | field :: rest => do
    let found ← layout.value row node field
    let others ← layout.values row node rest
    match found with
    | some value => .ok ((field, value) :: others)
    | none => .ok others

/-- The record that a row has for the table of a node, with its slots open. -/
def record (layout : Layout) (row : RawRow) (node : Node) : Except ResolutionError Record := do
  let values ← layout.values row node node.model.fields
  let record := ((RecordBuilder.ofModel node.model).setAll values).build
  .ok (node.nested.foldl (fun r below => r.ensureSlot below.model.table) record)

end Layout

end QueryForest
