namespace QueryForest.Sql

/-!
# Filling placeholders

A fragment of SQL marks the places of its values by question marks.

* `scan` finds the marks. Inside a quoted run nothing is a mark. A run starts at a double quote, a
  single quote, a backtick or an opening bracket and goes to its closing character, or to the end of
  the text; a backslash takes the meaning from the character behind it, and a closing quote written
  twice (not a bracket) goes on with the run.
* `fill` gives each mark the next value. Two marks in a row stand for one question mark that takes
  no value; a mark without a value left is an error, and values without a mark are dropped.
-/

/-- A character of a fragment, or a mark. -/
inductive Token
  | mark
  | char (c : Char)
  deriving DecidableEq

/-- Where the reading of a fragment stands. -/
inductive Scan
  /-- Outside any quoted run. -/
  | plain
  /-- In a quoted run with its closing character, and whether a backslash is in force. -/
  | quoted (close : Char) (escaped : Bool)
  /-- Behind a closing character that may go on with the run. -/
  | closed (close : Char)
  deriving DecidableEq

/-- The character that closes a quoted run, if `c` opens one. -/
def closing? (c : Char) : Option Char :=
  if c = '"' then some '"'
  else if c = '\'' then some '\''
  else if c = '\x60' then some '\x60'
  else if c = '[' then some ']'
  else none

/-- Where the reading stands behind a character that is read outside any quoted run. -/
def Scan.enter (c : Char) : Scan :=
  match closing? c with
  | some close => .quoted close false
  | none => .plain

/-- Where the reading stands behind the next character. -/
def Scan.step (c : Char) : Scan → Scan
  | plain => enter c
  | quoted close escaped =>
    if c = close ∧ escaped = false then if c = ']' then plain else closed close
    else quoted close (!escaped && c = '\\')
  | closed close => if c = close then quoted close false else enter c

/-- Whether the next character belongs to a quoted run whatever it is. -/
def Scan.inside : Scan → Bool
  | quoted .. => true
  | _ => false

/-- The characters and marks of a fragment. -/
def scan (state : Scan) : List Char → List Token
  | [] => []
  | c :: cs =>
    (if c = '?' ∧ state.inside = false then .mark else .char c) :: scan (state.step c) cs

/-- The text that is sent, and the values of its marks in order. -/
def fill {α : Type} : List Token → List α → Option (List Char × List α)
  | [], _ => some ([], [])
  | .mark :: .mark :: rest, values =>
    (fill rest values).map fun (text, bound) => ('?' :: text, bound)
  | .mark :: _, [] => none
  | .mark :: rest, value :: values =>
    (fill rest values).map fun (text, bound) => ('?' :: text, value :: bound)
  | .char c :: rest, values =>
    (fill rest values).map fun (text, bound) => (c :: text, bound)

/-- Fills the marks of a fragment with values. -/
def fillMarks {α : Type} (text : List Char) (values : List α) : Option (List Char × List α) :=
  fill (scan .plain text) values

end QueryForest.Sql
