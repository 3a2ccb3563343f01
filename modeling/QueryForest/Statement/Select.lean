import QueryForest.Join.Basic
import QueryForest.Predicate

namespace QueryForest

/-!
# Selections

A `Select` is put together step by step and then built into a query.

* `Select.ofModel`, `Select.ofSelections` and `Select.find` start one;
* `Select.filter` and its variants add a segment to its predicate, `Select.orderBy`,
  `Select.groupBy`, `Select.limit`, `Select.offset` and `Select.join` the other clauses;
* `Select.build` plans the joins and writes the statement.

Without selections the select list is everything or, with joins, every declared field of every
table in the order of the plan.
-/

/-- An item of a select list. -/
inductive Selection
  | field (name : String)
  /-- A function of a column, with a name for the result. -/
  | function (name argument : String) (alias? : Option String)
  deriving DecidableEq

/-- The SQL of an item of a select list. -/
def Selection.text : Selection → List Char
  | field name => Sql.columnText name
  | function name argument alias? =>
    name.toList ++ '(' :: Sql.quotePath argument.toList ++ ')' ::
      (match alias? with
        | some result => " AS ".toList ++ Sql.quoteName result.toList
        | none => [])

/-- A direction of an ordering. -/
inductive Direction
  | ascending
  | descending
  deriving DecidableEq

/-- The direction with a given keyword, whatever the case of its letters. -/
def Direction.ofKeyword? (keyword : String) : Option Direction :=
  let letters := keyword.toList.map Char.toLower
  if letters = "asc".toList then some .ascending
  else if letters = "desc".toList then some .descending
  else none

/-- The keyword of a direction. -/
def Direction.keyword : Direction → String
  | ascending => "ASC"
  | descending => "DESC"

/-- A selection of rows of a model's table and of tables joined to it. -/
structure Select where
  model : Model
  selections : List Selection
  predicate : Predicate
  order : List (String × Direction)
  grouping : Option String
  maxRows : Option UInt64
  skippedRows : Option UInt64
  joins : List Join

namespace Select

/-- All rows of a model's table. -/
def ofModel (model : Model) : Select :=
  ⟨model, [], .empty, [], none, none, none, []⟩

/-- All rows of a model's table, with a select list. -/
def ofSelections (model : Model) (selections : List Selection) : Select :=
  { ofModel model with selections }

/-- The rows of a predicate. -/
def ofPredicate (model : Model) (predicate : Predicate) : Select :=
  { ofModel model with predicate }

/-- Replaces the select list. -/
def fields (s : Select) (selections : List Selection) : Select := { s with selections }

/-- Adds a segment to the predicate. -/
def push (s : Select) (connective : Connective) (conditions : List Condition) : Select :=
  { s with predicate := s.predicate.push connective conditions }

/-- Adds a condition, joined to what follows by `AND`. -/
def filter (s : Select) (condition : Condition) : Select := s.push .and [condition]

/-- Adds a condition, joined to what follows by `OR`. -/
def filterOr (s : Select) (condition : Condition) : Select := s.push .or [condition]

/-- Adds conditions that all have to hold. -/
def filterAll (s : Select) (conditions : List Condition) : Select := s.push .and conditions

/-- Adds conditions of which one has to hold. -/
def filterAny (s : Select) (conditions : List Condition) : Select := s.push .or conditions

/-- The rows with a given primary key. -/
def find (model : Model) (key : BindValue) : Select :=
  (ofModel model).filter (.equal (model.qualified model.primaryKey) key)

/-- Adds an ordering behind the present ones. -/
def orderIn (s : Select) (direction : Direction) (field : String) : Select :=
  { s with order := s.order ++ [(field, direction)] }

/-- Adds an ordering whose direction is given by a keyword. -/
def orderBy (s : Select) (field keyword : String) : Except Error Select :=
  match Direction.ofKeyword? keyword with
  | some direction => .ok (s.orderIn direction field)
  | none => .error (.configuration (.unsupportedOrdering field keyword))

/-- Groups the rows by a field. -/
def groupBy (s : Select) (field : String) : Select := { s with grouping := some field }

/-- Sets the largest number of rows. -/
def limit (s : Select) (count : UInt64) : Select := { s with maxRows := some count }

/-- Sets the number of rows to skip. -/
def offset (s : Select) (count : UInt64) : Select := { s with skippedRows := some count }

/-- Asks for a related model. -/
def join (s : Select) (join : Join) : Select := { s with joins := s.joins ++ [join] }

/-- The limit that stands for none where the language asks for one: the largest signed integer of
64 bits. -/
def unbounded : UInt64 := 9223372036854775807

/-- Every declared field of a list of models, with its table. -/
def declaredColumns (models : List Model) : List (List Char) :=
  models.flatMap fun m => m.fields.map (Sql.qualifiedText m.table)

/-- The items of the select list. -/
def items (s : Select) (planned : List PlannedJoin) : List (List Char) :=
  if s.selections.isEmpty then
    if planned.isEmpty then [['*']] else declaredColumns (s.model :: planned.map (·.model))
  else s.selections.map Selection.text

/-- The `JOIN` clause of a planned join. -/
def joinText (j : PlannedJoin) : List Char :=
  (match j.kind with
    | .left => " LEFT JOIN ".toList
    | .inner => " INNER JOIN ".toList) ++
    Sql.quoteName j.model.table.toList ++ " ON ".toList ++
    Sql.qualifiedText j.left.1 j.left.2 ++ " = ".toList ++ Sql.qualifiedText j.right.1 j.right.2

/-- The `GROUP BY` clause. -/
def groupText (s : Select) : List Char :=
  match s.grouping with
  | some field => " GROUP BY ".toList ++ Sql.columnText field
  | none => []

/-- The `ORDER BY` clause. -/
def orderText (s : Select) : List Char :=
  if s.order.isEmpty then []
  else
    " ORDER BY ".toList ++ List.intercalate [',', ' ']
      (s.order.map fun (field, direction) =>
        Sql.columnText field ++ ' ' :: direction.keyword.toList)

/-- A clause with a number of rows, if there is one. -/
def countClause (word : String) : Option UInt64 → Sql.Fragment
  | some count => .ofString word ++ .parameter (.bigUnsigned (some count))
  | none => .ofText []

/-- The largest number of rows as it is sent: rows are skipped only behind some limit. -/
def sentLimit (s : Select) : Option UInt64 :=
  s.maxRows <|> s.skippedRows.map fun _ => unbounded

/-- The `LIMIT` and `OFFSET` clauses. -/
def paging (s : Select) : Sql.Fragment :=
  countClause " LIMIT " s.sentLimit ++ countClause " OFFSET " s.skippedRows

/-- The statement up to its `WHERE` clause. -/
def head (s : Select) (planned : List PlannedJoin) : List Char :=
  "SELECT ".toList ++ List.intercalate [',', ' '] (s.items planned) ++ " FROM ".toList ++
    Sql.quoteName s.model.table.toList ++ planned.flatMap joinText

/-- Plans the joins and writes the statement. -/
def build (s : Select) : Except Error Query := do
  -- a relation that cannot be resolved is reported before any value
  let planned ← (plan s.model s.joins).mapError .resolution
  let condition ← s.predicate.clause
  (Sql.Fragment.ofText (s.head planned) ++ condition ++
    .ofText (s.groupText ++ s.orderText) ++ s.paging).toQuery

end Select

end QueryForest
