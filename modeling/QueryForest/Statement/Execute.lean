import QueryForest.Connection.Basic
import QueryForest.Forest.Assemble
import QueryForest.Statement.Delete
import QueryForest.Statement.Insert
import QueryForest.Statement.Select
import QueryForest.Statement.Update

namespace QueryForest

/-!
# Executing statements

A statement is built, sent over a connection, and its rows are assembled. A statement that cannot
be built is not sent, and nothing is sent after a failure.

* `Select.execute`, `Select.first` and `Select.rows` send one query;
* `Insert.execute` and `Update.execute` send the statement and then select the rows concerned: the
  row with the reported identity, or the rows of the same predicate;
* `Delete.execute` sends the statement.
-/

/-- A run against a database with state `σ`, which may fail. -/
abbrev Run (σ α : Type) := ExceptT Error (StateM σ) α

namespace Run

variable {σ α : Type}

/-- What does not need the database. -/
def ofExcept (result : Except Error α) : Run σ α := ExceptT.mk (fun s => (result, s))

/-- A call of the database, whose report becomes the error. -/
def call (f : σ → Except String α × σ) : Run σ α :=
  ExceptT.mk fun s =>
    let (result, s) := f s
    (result.mapError Error.execution, s)

end Run

/-- What a change of the database comes to: the number of rows and the rows read again. -/
structure Mutation where
  rowsAffected : UInt64
  records : List Record

variable {σ : Type}

namespace Select

/-- Sends the query and reads its rows in a mode. -/
def fetch (c : Connection σ) (mode : FetchMode) (s : Select) : Run σ (List RawRow) := do
  let query ← Run.ofExcept s.build
  let rows ← Run.call (c.query query)
  return rows.map (Row.fetch mode)

/-- Sends the query, reads its rows in a mode and assembles them. -/
def executeIn (c : Connection σ) (mode : FetchMode) (s : Select) : Run σ (List Record) := do
  let rows ← s.fetch c mode
  Run.ofExcept ((assemble s.model s.joins rows).mapError .resolution)

/-- The forest that a selection finds. -/
def execute (c : Connection σ) (s : Select) : Run σ (List Record) := s.executeIn c .named

/-- The first record of the forest that a selection finds. -/
def first (c : Connection σ) (s : Select) : Run σ (Option Record) := do
  let records ← s.execute c
  return records.head?

/-- The rows that a selection finds, the last value of each name. -/
def rows (c : Connection σ) (s : Select) : Run σ (List RawRow) := s.fetch c .assoc

end Select

/-- Inserts the row and reads it again by the identity that the database reports. -/
def Insert.execute (c : Connection σ) (s : Insert) : Run σ Mutation := do
  let query ← Run.ofExcept s.build
  let outcome ← Run.call (c.exec query)
  let inserted := (Select.ofModel s.model).filter
    (.equal s.model.primaryKey outcome.lastInsertId.toBind)
  let records ← inserted.executeIn c .assoc
  return ⟨outcome.rowsAffected, records⟩

/-- Updates the rows and reads the rows of the same predicate again. -/
def Update.execute (c : Connection σ) (s : Update) : Run σ Mutation := do
  let query ← Run.ofExcept s.build
  let outcome ← Run.call (c.exec query)
  let records ← (Select.ofPredicate s.model s.predicate).executeIn c .assoc
  return ⟨outcome.rowsAffected, records⟩

/-- Deletes the rows, and gives their number. -/
def Delete.execute (c : Connection σ) (s : Delete) : Run σ UInt64 := do
  let query ← Run.ofExcept s.build
  let outcome ← Run.call (c.exec query)
  return outcome.rowsAffected

end QueryForest
