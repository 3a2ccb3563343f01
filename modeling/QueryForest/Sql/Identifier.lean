namespace QueryForest.Sql

/-!
# Identifiers

* `quoteName` writes one identifier between double quotes, a quote inside written twice;
* `quotePath` writes a path of identifiers: its pieces between dots, with a bare star kept;
* `ColumnReference` is a column as a select list, a grouping or an ordering names it: there only
  the first dot separates, and the table in front of it is always quoted.
-/

/-- The characters of an identifier, each double quote written twice. -/
def doubleQuotes (name : List Char) : List Char :=
  name.flatMap fun c => if c = '"' then ['"', '"'] else [c]

/-- One identifier between double quotes. -/
def quoteName (name : List Char) : List Char := '"' :: doubleQuotes name ++ ['"']

/-- One piece of a path: a star as it is, anything else as an identifier. -/
def quotePiece (piece : List Char) : List Char :=
  if piece = ['*'] then ['*'] else quoteName piece

/-- A path of identifiers, with dots between its pieces. -/
def quotePath (path : List Char) : List Char :=
  List.intercalate ['.'] ((path.splitOn '.').map quotePiece)

/-- The text of a path of identifiers. -/
def quoteIdentifier (path : String) : String := String.ofList (quotePath path.toList)

/-- A column of a select list, a grouping or an ordering. -/
inductive ColumnReference
  /-- All columns. -/
  | all
  /-- All columns of a table. -/
  | everyOf (table : List Char)
  /-- A column of any table. -/
  | bare (name : List Char)
  /-- A column of a table. -/
  | qualified (table column : List Char)
  deriving DecidableEq

/-- The characters before and behind the first dot. -/
def splitAtDot : List Char → Option (List Char × List Char)
  | [] => none
  | c :: cs => if c = '.' then some ([], cs) else (splitAtDot cs).map fun (a, b) => (c :: a, b)

/-- The column that a name stands for: the part before the first dot is its table. -/
def ColumnReference.ofName (name : List Char) : ColumnReference :=
  match splitAtDot name with
  | some (table, column) => if column = ['*'] then .everyOf table else .qualified table column
  | none => if name = ['*'] then .all else .bare name

/-- The text of a column reference. -/
def ColumnReference.text : ColumnReference → List Char
  | all => ['*']
  | everyOf table => quoteName table ++ ['.', '*']
  | bare name => quoteName name
  | qualified table column => quoteName table ++ '.' :: quoteName column

/-- The text of the column that a name stands for. -/
def columnText (name : String) : List Char := (ColumnReference.ofName name.toList).text

/-- The text of a column of a table. -/
def qualifiedText (table column : String) : List Char :=
  (ColumnReference.qualified table.toList column.toList).text

end QueryForest.Sql
