import QueryForest.Sql.Fragment
import QueryForest.Sql.Identifier

namespace QueryForest

/-!
# Predicates

A `Predicate` is a list of segments, and a `Segment` joins its conditions by its own connective.
The connective of a segment also joins it to the segment behind it.

* `Predicate.push` adds a segment; a segment without conditions is dropped;
* `Predicate.compile?` writes the predicate as SQL with one placeholder per condition;
* `Condition.ofParts` reads a condition from a list of values.
-/

/-- How conditions and segments are joined. -/
inductive Connective
  | and
  | or
  deriving DecidableEq

/-- The word for a connective. -/
def Connective.word : Connective → String
  | and => "AND"
  | or => "OR"

/-- A comparison of a field with a value. -/
structure Condition where
  field : String
  operator : String
  value : BindValue
  deriving DecidableEq

namespace Condition

/-- The condition that a field equals a value. -/
def equal (field : String) (value : BindValue) : Condition := ⟨field, "=", value⟩

/-- The text of a value that names something. -/
def namePart (position : Nat) : BindValue → Except ConfigurationError String
  | .string (some name) => .ok name
  | other => .error (.conditionPart position (String.ofList other.description))

/-- Reads a condition from its parts: a field, an operator unless it is equality, and a value. -/
def ofParts : List BindValue → Except ConfigurationError Condition
  | [field, value] => do
    let field ← namePart 0 field
    .ok (equal field value)
  | [field, operator, value] => do
    let field ← namePart 0 field
    let operator ← namePart 1 operator
    .ok ⟨field, operator, value⟩
  | parts => .error (.conditionArity parts.length)

/-- The SQL of a condition, with a placeholder for its value. -/
def text (c : Condition) : List Char :=
  Sql.quotePath c.field.toList ++ ' ' :: c.operator.toList ++ [' ', '?']

end Condition

/-- Conditions with the connective that joins them. -/
structure Segment where
  connective : Connective
  conditions : List Condition
  deriving DecidableEq

namespace Segment

/-- The connective of a segment with a space on both sides. -/
def separator (s : Segment) : List Char := ' ' :: s.connective.word.toList ++ [' ']

/-- The SQL of a segment; in a group of segments, two or more conditions are bracketed. -/
def text (grouped : Bool) (s : Segment) : List Char :=
  let body := List.intercalate s.separator (s.conditions.map Condition.text)
  -- a single condition, or a single segment, needs no brackets
  if grouped && 1 < s.conditions.length then '(' :: body ++ [')'] else body

/-- The values of the conditions, in order. -/
def values (s : Segment) : List BindValue := s.conditions.map Condition.value

end Segment

/-- The segments of a condition on rows, none of them empty. -/
structure Predicate where
  segments : List Segment
  deriving DecidableEq

namespace Predicate

/-- The predicate without segments, which holds for all rows. -/
def empty : Predicate := ⟨[]⟩

/-- Whether there is no segment. -/
def isEmpty (p : Predicate) : Bool := p.segments.isEmpty

/-- Adds a segment, unless it has no conditions. -/
def push (p : Predicate) (connective : Connective) (conditions : List Condition) : Predicate :=
  if conditions.isEmpty then p else ⟨p.segments ++ [⟨connective, conditions⟩]⟩

/-- The SQL of a list of segments: the connective of each stands behind it. -/
def segmentsText (grouped : Bool) : List Segment → List Char
  | [] => []
  | [s] => s.text grouped
  | s :: rest => s.text grouped ++ s.separator ++ segmentsText grouped rest

/-- The values of all conditions, in order. -/
def values (p : Predicate) : List BindValue := p.segments.flatMap Segment.values

/-- The predicate as SQL, with the values of its placeholders; nothing for the empty one. -/
def compile? (p : Predicate) : Option Sql.Fragment :=
  if p.isEmpty then none
  else some ⟨segmentsText (1 < p.segments.length) p.segments, p.values⟩

/-- The `WHERE` clause of a predicate, with its placeholders filled; nothing for the empty one. -/
def clause (p : Predicate) : Except Error Sql.Fragment :=
  match p.compile? with
  | none => .ok (.ofText [])
  | some compiled => compiled.bound.map (Sql.Fragment.ofString " WHERE " ++ ·)

end Predicate

end QueryForest
