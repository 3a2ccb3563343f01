import QueryForest.Connection.Basic
import QueryForest.Sql.Identifier
import QueryForest.Store.Value

namespace QueryForest

/-!
# Store sessions

A `Session` is an open embedded store with one table, `t (id, v)`, whose rows stand in the order of
their identities.

* `Command` is one of the statements that a session knows, with its parameters still open;
* `Session.run` runs a command with parameters and gives its reply or an error, and the session
  after it.

A row inserted without an identity gets the one behind the largest. The session remembers the
identity of the last row that was inserted, zero before the first.
-/

/-- A statement with open parameters. -/
inductive Command
  /-- The parameters as one row, under the given names. -/
  | select (names : List String)
  /-- All rows of the table. -/
  | all
  /-- The parameter as text, under the name `x`. -/
  | castText
  /-- The absolute value of the parameter, under the name `x`. -/
  | absolute
  /-- The rows of a table that does not exist. -/
  | selectMissing
  /-- A row into a table that does not exist. -/
  | insertMissing
  /-- A row with a given value. -/
  | insert
  /-- A row with a given identity and value. -/
  | insertAt
  /-- The value of the row with a given identity. -/
  | update
  /-- The value of all rows. -/
  | updateAll
  /-- The row with a given identity. -/
  | delete
  /-- All rows. -/
  | deleteAll
  deriving DecidableEq

/-- What a command gives: rows, or the outcome of a change. -/
inductive StoreReply
  | rows (rows : List Row)
  | outcome (outcome : Outcome)
  deriving DecidableEq

namespace Command

/-- The number of parameters. -/
def parameterCount : Command → Nat
  | select names => names.length
  | all | selectMissing | deleteAll => 0
  | castText | absolute | insertMissing | insert | updateAll | delete => 1
  | insertAt | update => 2

/-- Whether a command asks for rows. -/
def isQuery : Command → Bool
  | select _ | all | castText | absolute | selectMissing => true
  | _ => false

/-- Whether a name stands behind `AS`: a single quoted identifier without a null character. -/
def isResultName (name : String) : Bool :=
  Sql.quotePath name.toList == Sql.quoteName name.toList && !name.toList.contains '\x00'

/-- The largest number of columns in a row. -/
def columnLimit : Nat := 2000

/-- Whether the statement is well-formed and names a table that exists. -/
def isPrepared : Command → Bool
  | select names => !names.isEmpty && names.length ≤ columnLimit && names.all isResultName
  | selectMissing | insertMissing => false
  | _ => true

end Command

/-- An open store: the rows of its table, and the identity of the last row that was inserted. -/
structure Session where
  rows : List (Int64 × StoredValue)
  lastInsertId : Int64
  deriving DecidableEq

namespace Session

/-- A store whose table is empty. -/
def empty : Session := ⟨[], 0⟩

/-- Puts a row at its place, unless its identity is taken. -/
def placeRow (id : Int64) (value : StoredValue) :
    List (Int64 × StoredValue) → Option (List (Int64 × StoredValue))
  | [] => some [(id, value)]
  | (n, v) :: rest =>
    if id < n then some ((id, value) :: (n, v) :: rest)
    else if id = n then none
    else (placeRow id value rest).map ((n, v) :: ·)

/-- The identity behind the largest, one in an empty table, if there is one. -/
def nextId? (s : Session) : Option Int64 :=
  match s.rows.getLast? with
  | none => some 1
  | some (n, _) => if n = Int64.maxValue then none else some (n + 1)

/-- The outcome of a change of some rows. -/
def outcome (s : Session) (affected : Nat) : StoreReply :=
  .outcome ⟨UInt64.ofNat affected, .int64 (some s.lastInsertId)⟩

/-- Inserts a row under an identity. -/
def insertRow (s : Session) (id : Option Int64) (value : StoredValue) :
    Except StoreError StoreReply × Session :=
  match id.bind fun id => (placeRow id value s.rows).map (id, ·) with
  | some (id, rows) =>
    let s : Session := ⟨rows, id⟩
    (.ok (s.outcome 1), s)
  | none => (.error .execute, s)

/-- Inserts a row under the identity that a value stands for; NULL stands for the next one. -/
def insertAt (s : Session) (id value : StoredValue) : Except StoreError StoreReply × Session :=
  match id with
  | .null => s.insertRow s.nextId? value
  | id => s.insertRow id.rowId? value

/-- Whether a row has the identity that a value stands for. -/
def hasId (id : StoredValue) (row : Int64 × StoredValue) : Bool := id.rowId? == some row.1

/-- Sets the value of the rows that satisfy a condition. -/
def updateRows (s : Session) (value : StoredValue) (p : Int64 × StoredValue → Bool) :
    Except StoreError StoreReply × Session :=
  (.ok (s.outcome (s.rows.countP p)),
    { s with rows := s.rows.map fun row => if p row then (row.1, value) else row })

/-- Removes the rows that satisfy a condition. -/
def deleteRows (s : Session) (p : Int64 × StoredValue → Bool) :
    Except StoreError StoreReply × Session :=
  (.ok (s.outcome (s.rows.countP p)), { s with rows := s.rows.filter fun row => !p row })

/-- Reads a row of named values. -/
def readRow (fields : List (String × StoredValue)) : Except StoreError Row :=
  (fields.mapM fun (field : String × StoredValue) => field.2.toScalar.map (field.1, ·)).map Row.mk

/-- Reads rows of named values. -/
def readRows (rows : List (List (String × StoredValue))) : Except StoreError StoreReply :=
  (rows.mapM readRow).map .rows

/-- Runs a well-formed command with the right number of parameters. -/
def apply (s : Session) : Command → List StoredValue → Except StoreError StoreReply × Session
  | .select names, params => (readRows [names.zip params], s)
  | .all, _ =>
    (readRows (s.rows.map fun (id, value) => [("id", .integer id), ("v", value)]), s)
  | .castText, [value] => (readRows [[("x", value.castText)]], s)
  | .absolute, [value] =>
    match value.absolute? with
    | some value => (readRows [[("x", value)]], s)
    | none => (.error .fetchRow, s)
  | .insert, [value] => s.insertRow s.nextId? value
  | .insertAt, [id, value] => s.insertAt id value
  | .update, [value, id] => s.updateRows value (hasId id)
  | .updateAll, [value] => s.updateRows value fun _ => true
  | .delete, [id] => s.deleteRows (hasId id)
  | .deleteAll, _ => s.deleteRows fun _ => true
  | _, _ => (.error .prepare, s)

/-- Runs a command with parameters. -/
def run (s : Session) (c : Command) (params : List Scalar) :
    Except StoreError StoreReply × Session :=
  -- a malformed statement is refused before its parameters are looked at
  if !c.isPrepared then (.error .prepare, s)
  else if params.length ≠ c.parameterCount then
    (.error (if c.isQuery then .query else .execute), s)
  else s.apply c (params.map fun p => p.toStored.bound)

end Session

end QueryForest
