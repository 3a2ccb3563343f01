import QueryForest.Connection.Basic
import QueryForest.Data.Assoc
import QueryForest.Proofs.Row
import QueryForest.Proofs.Sql.Formula

namespace QueryForest

/-!
# A database with one table

What updates and selections do to a table, by their text. The text is read as a database reads it:
cut into lexemes, with the parameters taken for the placeholders from left to right.

* `readUpdate?` and `readSelection?` — the columns that an update sets, and the formula of a
  `WHERE` clause;
* `Clause.selects` — whether a row satisfies a clause, when each atom compares a column with its
  parameter;
* `Row.overwrite` — a row with other values in some columns;
* `table` — the connection to the table: an update overwrites the rows that its clause selects and
  reports their number, and a selection gives the rows that its clause selects.
-/

namespace Sql

/-! ### Reading statements -/

/-- The columns of a list of assignments to placeholders, and the lexemes behind it. -/
def readAssignments? : List Lexeme → Option (List (List Char) × List Lexeme)
  | .quoted '"' column :: .sign '=' :: .sign '?' :: .sign ',' :: rest =>
    (readAssignments? rest).map fun (columns, more) => (column :: columns, more)
  | .quoted '"' column :: .sign '=' :: .sign '?' :: rest => some ([column], rest)
  | _ => none

/-- The formula of a `WHERE` clause; where there is none, all rows are meant. -/
abbrev Clause := Option Formula

/-- The clause at the end of a statement. -/
def readClause? : List Lexeme → Option Clause
  | [] => some none
  | .word ['W', 'H', 'E', 'R', 'E'] :: rest => (read? rest).map some
  | _ => none

/-- The columns and the clause of an update of a table. -/
def readUpdate? (name : String) (sql : String) : Option (List (List Char) × Clause) :=
  match lexemes sql.toList with
  | .word ['U', 'P', 'D', 'A', 'T', 'E'] :: .quoted '"' target :: .word ['S', 'E', 'T'] :: rest =>
    if target = name.toList then
      (readAssignments? rest).bind fun (columns, more) => (readClause? more).map (columns, ·)
    else none
  | _ => none

/-- The clause of a selection of all columns of a table. -/
def readSelection? (name : String) (sql : String) : Option Clause :=
  match lexemes sql.toList with
  | .word ['S', 'E', 'L', 'E', 'C', 'T'] :: .sign '*' :: .word ['F', 'R', 'O', 'M'] ::
      .quoted '"' target :: rest =>
    if target = name.toList then readClause? rest else none
  | _ => none

/-! ### Rows -/

/-- The column of a table that an atom compares with its parameter. -/
def comparedColumn? (name : String) : List Lexeme → Option (List Char)
  | [.quoted '"' column, .sign '=', .sign '?'] => some column
  | [.quoted '"' target, .sign '.', .quoted '"' column, .sign '=', .sign '?'] =>
    if target = name.toList then some column else none
  | _ => none

section Table

variable (equal : Scalar → Scalar → Bool) (name : String)

/-- Whether an atom holds for a row, where `equal` compares a value with a parameter. -/
def atomHolds (row : Row) (atom : List Lexeme) (param : Scalar) : Bool :=
  ((comparedColumn? name atom).bind fun column => row.last? (String.ofList column)).any
    (equal · param)

/-- Whether a row satisfies a clause with some parameters, one for each atom. -/
def Clause.selects (clause : Clause) (params : List Scalar) (row : Row) : Bool :=
  clause.all fun f => f.holds (fun i => (f.atoms[i]?).any fun atom =>
    (params[i]?).any (atomHolds equal name row atom)) 0

end Table

end Sql

/-- A row with other values in some columns. -/
def Row.overwrite (entries : List (String × Scalar)) (row : Row) : Row :=
  ⟨entries.foldl (fun fields e => Assoc.set e.1 e.2 fields) row.fields⟩

namespace Sql

/-- The rows of a table after those of a selection were overwritten. -/
def overwriteRows (selects : Row → Bool) (entries : List (String × Scalar)) (rows : List Row) :
    List Row :=
  rows.map fun row => if selects row then row.overwrite entries else row

/-- The connection to a table, whose rows are the state. -/
def table (equal : Scalar → Scalar → Bool) (name : String) : Connection (List Row) where
  exec q rows :=
    match readUpdate? name q.sql with
    | some (columns, clause) =>
      let selects := clause.selects equal name (q.params.drop columns.length)
      (.ok ⟨UInt64.ofNat (rows.countP selects), .int64 (some 0)⟩,
        overwriteRows selects ((columns.map String.ofList).zip q.params) rows)
    | none => (.error "no update of the table", rows)
  query q rows :=
    match readSelection? name q.sql with
    | some clause => (.ok (rows.filter (clause.selects equal name q.params)), rows)
    | none => (.error "no selection from the table", rows)

end Sql

end QueryForest
