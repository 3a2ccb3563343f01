import Mathlib.Data.List.Basic
import Mathlib.Data.List.Induction
import QueryForest.Proofs.Data.NameMap
import QueryForest.Proofs.Data.Writes
import QueryForest.Row

namespace QueryForest

/-!
# What a fetched row holds under a name

Both ways to fetch a row go through its fields once. What they leave under a name depends only on
the values that the fields give it, in column order.

* `Row.get?_fetch_named` — a name with one value has it as a scalar, and a name with several has
  all of them;
* `Row.last?` and `Row.get?_fetch_assoc` — or the last of them is kept.
-/

/-- What a row holds under a name with the given values. -/
def Column.ofOccurrences : List Scalar → Option Column
  | [] => none
  | [value] => some (.scalar value)
  | values => some (.perOccurrence values)

/-- A further occurrence extends what the occurrences in front of it are fetched as. -/
theorem Column.ofOccurrences_concat (values : List Scalar) (value : Scalar) :
    ofOccurrences (values ++ [value]) = some (extend value (ofOccurrences values)) := by
  match values with
  | [] => rfl
  | [_] => rfl
  | _ :: _ :: _ => rfl

namespace Row

/-- **A row that keeps all values of a name.** -/
theorem get?_fetch_named (name : String) (fields : List (String × Scalar)) :
    (fetch .named ⟨fields⟩).get? name = Column.ofOccurrences (Assoc.valuesOf name fields) := by
  unfold fetch
  induction fields using List.reverseRecOn with
  | nil => rfl
  | append_singleton fields field ih =>
    rw [List.foldl_append, List.foldl_cons, List.foldl_nil, RawRow.enter, NameMap.get?_insert,
      Assoc.valuesOf_append, Assoc.valuesOf_singleton]
    by_cases h : field.1 = name
    · rw [if_pos h, if_pos h, h, ih, Column.ofOccurrences_concat]
    · rw [if_neg h, if_neg h, List.append_nil, ih]

/-- The last value under a name, in column order. -/
def last? (row : Row) (name : String) : Option Scalar := Assoc.last? name row.fields

/-- **A row that keeps the last value of a name.** -/
theorem get?_fetch_assoc (row : Row) (name : String) :
    (row.fetch .assoc).get? name = (row.last? name).map .scalar := by
  obtain ⟨fields⟩ := row
  unfold fetch last?
  induction fields using List.reverseRecOn with
  | nil => rfl
  | append_singleton fields field ih =>
    rw [List.foldl_append, List.foldl_cons, List.foldl_nil, RawRow.enter, NameMap.get?_insert,
      Assoc.last?_concat]
    by_cases h : field.1 = name
    · rw [if_pos h, if_pos h]
      rfl
    · rw [if_neg h, if_neg h, ih]

end Row

end QueryForest
