import Mathlib.Algebra.BigOperators.Group.List.Lemmas
import Mathlib.Algebra.Order.Ring.Nat
import Mathlib.Data.List.Dedup
import QueryForest.Proofs.Data.Writes
import QueryForest.Proofs.Row

namespace QueryForest

/-!
# What fetching a row keeps

A fetched row forgets how the names of its fields alternate. If it keeps all values of a name, it
forgets nothing else; if it keeps the last, it has the last of what the former has.

* `Column.ofOccurrences_eq_scalar_iff`, `Column.ofOccurrences_eq_perOccurrence_iff` — one value is a
  scalar and several are a list;
* `Row.sum_occurrences` — no field is lost, and none is counted twice;
* `Row.fetch_named_eq_iff` — which rows are fetched alike;
* `Row.fetch_keeps` — both ways to fetch a row.
-/

/-! ### Columns -/

namespace Column

/-- The last value of a column. -/
def last? : Column → Option Scalar
  | scalar value => some value
  | perOccurrence values => values.getLast?

/-- A column without occurrences is not fetched. -/
theorem ofOccurrences_eq_none_iff {values : List Scalar} :
    ofOccurrences values = none ↔ values = [] := by
  match values with
  | [] => simp [ofOccurrences]
  | [_] => simp [ofOccurrences]
  | _ :: _ :: _ => simp [ofOccurrences]

/-- A column is fetched as one value exactly if it occurs once. -/
theorem ofOccurrences_eq_scalar_iff {values : List Scalar} {value : Scalar} :
    ofOccurrences values = some (.scalar value) ↔ values = [value] := by
  match values with
  | [] => simp [ofOccurrences]
  | [_] => simp [ofOccurrences]
  | _ :: _ :: _ => simp [ofOccurrences]

/-- A column is fetched as a list of values exactly if it occurs at least twice, and the list is
that of its occurrences. -/
theorem ofOccurrences_eq_perOccurrence_iff {values several : List Scalar} :
    ofOccurrences values = some (.perOccurrence several) ↔
      values = several ∧ 2 ≤ several.length := by
  match values with
  | [] => simp +contextual [ofOccurrences, eq_comm]
  | [_] => simp +contextual [ofOccurrences, eq_comm]
  | _ :: _ :: _ => simp +contextual [ofOccurrences, eq_comm]

/-- A column has all values of its name and no others. -/
theorem ofOccurrences_injective : Function.Injective ofOccurrences := by
  intro values others h
  cases hcolumn : ofOccurrences others with
  | none => rw [ofOccurrences_eq_none_iff.1 (h.trans hcolumn), ofOccurrences_eq_none_iff.1 hcolumn]
  | some column =>
    cases column with
    | scalar value =>
      rw [ofOccurrences_eq_scalar_iff.1 (h.trans hcolumn), ofOccurrences_eq_scalar_iff.1 hcolumn]
    | perOccurrence several =>
      rw [(ofOccurrences_eq_perOccurrence_iff.1 (h.trans hcolumn)).1,
        (ofOccurrences_eq_perOccurrence_iff.1 hcolumn).1]

/-- A column that is fetched has as many occurrences as there were values under its name. -/
theorem occurrences_of_ofOccurrences {values : List Scalar} {column : Column}
    (h : ofOccurrences values = some column) : column.occurrences = values.length := by
  cases column with
  | scalar value =>
    rw [ofOccurrences_eq_scalar_iff.1 h]
    rfl
  | perOccurrence several =>
    rw [(ofOccurrences_eq_perOccurrence_iff.1 h).1]
    rfl

/-- The last occurrence of a column is the last value under its name. -/
theorem bind_last?_ofOccurrences (values : List Scalar) :
    (ofOccurrences values).bind last? = values.getLast? := by
  match values with
  | [] => rfl
  | [_] => rfl
  | _ :: _ :: _ => rfl

end Column

namespace Row

/-! ### Names -/

variable (row : Row)

/-- A column is missing in a fetched row exactly if it is missing in the row. -/
theorem get?_fetch_named_eq_none_iff (name : String) :
    (row.fetch .named).get? name = none ↔ name ∉ row.fields.map Prod.fst := by
  rw [get?_fetch_named, Column.ofOccurrences_eq_none_iff, Assoc.valuesOf_eq_nil_iff]

/-- The last of the values that are kept is the one that is kept alone. -/
theorem get?_fetch_assoc_eq_last (name : String) :
    (row.fetch .assoc).get? name =
      ((row.fetch .named).get? name).bind fun column => column.last?.map .scalar := by
  rw [get?_fetch_assoc, get?_fetch_named, last?, Assoc.last?, ← Column.bind_last?_ofOccurrences,
    Option.map_bind]
  rfl

/-- Both modes of fetching have the same names. -/
theorem names_fetch : (row.fetch .assoc).names = (row.fetch .named).names := by
  refine NameMap.names_congr fun name => ?_
  rw [get?_fetch_assoc, Option.isSome_map, Bool.eq_iff_iff, Option.isSome_iff_ne_none,
    Option.isSome_iff_ne_none, ne_eq, ne_eq, get?_fetch_named_eq_none_iff, last?,
    Assoc.last?_eq_none_iff]

/-- A row without repeated names is fetched alike both ways. -/
theorem fetch_named_of_nodup (h : (row.fields.map Prod.fst).Nodup) :
    row.fetch .named = row.fetch .assoc := by
  refine NameMap.ext_get? fun name => ?_
  rw [get?_fetch_assoc, get?_fetch_named, last?, Assoc.last?]
  have hlength : (Assoc.valuesOf name row.fields).length ≤ 1 := by
    rw [Assoc.length_valuesOf]
    exact List.nodup_iff_count_le_one.1 h name
  match hvalues : Assoc.valuesOf name row.fields with
  | [] => rfl
  | [value] => rfl
  | first :: second :: rest =>
    rw [hvalues, List.length_cons, List.length_cons] at hlength
    omega

/-! ### Counting -/

/-- The names of a fetched row are those of its fields. -/
theorem names_fetch_named_perm :
    (row.fetch .named).names.Perm (row.fields.map Prod.fst).dedup := by
  refine (List.perm_ext_iff_of_nodup (NameMap.nodup_names _) (List.nodup_dedup _)).2 fun name => ?_
  rw [NameMap.mem_names_iff, Option.isSome_iff_ne_none, ne_eq, get?_fetch_named_eq_none_iff, not_not,
    List.mem_dedup]

/-- **No field is lost.** -/
theorem sum_occurrences :
    ((row.fetch .named).toList.map fun e => e.2.occurrences).sum = row.fields.length := by
  have hcount : ∀ e ∈ (row.fetch .named).toList,
      e.2.occurrences = (row.fields.map Prod.fst).count e.1 := by
    rintro ⟨name, column⟩ he
    rw [NameMap.mem_toList_iff, get?_fetch_named] at he
    rw [Column.occurrences_of_ofOccurrences he, Assoc.length_valuesOf]
  calc ((row.fetch .named).toList.map fun e => e.2.occurrences).sum
      = ((row.fetch .named).names.map fun name => (row.fields.map Prod.fst).count name).sum := by
        rw [List.map_congr_left hcount, NameMap.names, List.map_map]
        rfl
    _ = ((row.fields.map Prod.fst).dedup.map fun name =>
          (row.fields.map Prod.fst).count name).sum := (row.names_fetch_named_perm.map _).sum_eq
    _ = row.fields.length := by rw [List.sum_map_count_dedup_eq_length, List.length_map]

/-! ### Rows that are fetched alike -/

variable {row} {other : Row}

/-- **Fields in another order.** A row that keeps all values of a name forgets nothing but how
different names alternate. -/
theorem fetch_named_eq_iff :
    row.fetch .named = other.fetch .named ↔ Reordered row.fields other.fields := by
  constructor
  · intro h
    refine reordered_of_order fun name => ?_
    have hcolumn : Column.ofOccurrences (Assoc.valuesOf name row.fields) =
        Column.ofOccurrences (Assoc.valuesOf name other.fields) := by
      rw [← get?_fetch_named, ← get?_fetch_named]
      exact congrArg (NameMap.get? · name) h
    rw [Assoc.filter_eq_map_valuesOf, Assoc.filter_eq_map_valuesOf,
      Column.ofOccurrences_injective hcolumn]
  · intro h
    refine NameMap.ext_get? fun name => ?_
    show (fetch .named ⟨row.fields⟩).get? name = (fetch .named ⟨other.fields⟩).get? name
    rw [get?_fetch_named, get?_fetch_named, h.valuesOf_eq name]

/-- Columns that keep the order under each name are fetched alike. -/
theorem fetch_of_reordered (h : Reordered row.fields other.fields) (mode : FetchMode) :
    row.fetch mode = other.fetch mode := by
  cases mode with
  | named => exact fetch_named_eq_iff.2 h
  | assoc =>
    refine NameMap.ext_get? fun name => ?_
    rw [get?_fetch_assoc, get?_fetch_assoc, last?, last?, h.last?_eq name]

/-- **What fetching a row keeps.** With all values kept, a name is there if a field has it, and holds
its value if there is one field and otherwise all values in column order, at least two of them; the
counts of all names come to the number of fields. With the last value kept, the same names are there,
each with the last of these values. Rows are fetched alike with all values kept exactly if one is the
other in another order, in which fields of one name keep theirs, and then the last values agree
too. -/
theorem fetch_keeps (row : Row) :
    (∀ name value, (row.fetch .named).get? name = some (.scalar value) ↔
        Assoc.valuesOf name row.fields = [value]) ∧
      (∀ name values, (row.fetch .named).get? name = some (.perOccurrence values) ↔
        Assoc.valuesOf name row.fields = values ∧ 2 ≤ values.length) ∧
      (∀ name, (row.fetch .named).get? name = none ↔ name ∉ row.fields.map Prod.fst) ∧
      ((row.fetch .named).toList.map fun e => e.2.occurrences).sum = row.fields.length ∧
      (row.fetch .assoc).names = (row.fetch .named).names ∧
      (∀ name, (row.fetch .assoc).get? name =
        ((row.fetch .named).get? name).bind fun column => column.last?.map .scalar) ∧
      ∀ other : Row,
        (row.fetch .named = other.fetch .named ↔ Reordered row.fields other.fields) ∧
        (Reordered row.fields other.fields → ∀ mode, row.fetch mode = other.fetch mode) := by
  refine ⟨fun name value => ?_, fun name values => ?_, row.get?_fetch_named_eq_none_iff,
    row.sum_occurrences, row.names_fetch, row.get?_fetch_assoc_eq_last,
    fun other => ⟨fetch_named_eq_iff, fetch_of_reordered⟩⟩
  · rw [get?_fetch_named, Column.ofOccurrences_eq_scalar_iff]
  · rw [get?_fetch_named, Column.ofOccurrences_eq_perOccurrence_iff]

end Row

namespace Survey

/-- The row of an exercise with a question and no response. -/
def joinedRow : Row :=
  ⟨[("id", .int64 (some 2)), ("title", .text (some "B")), ("id", .int64 (some 5)),
    ("label", .text (some "Q1")), ("id", .int64 none)]⟩

/-- The same with the title first. -/
def titleFirst : Row :=
  ⟨[("title", .text (some "B")), ("id", .int64 (some 2)), ("id", .int64 (some 5)),
    ("label", .text (some "Q1")), ("id", .int64 none)]⟩

end Survey

/-- A joined row with three columns `id`, and the same row with its title in front of them. -/
theorem Row.fetch_keeps_joinedRow : Reordered Survey.joinedRow.fields Survey.titleFirst.fields ∧
    (Survey.titleFirst.fetch .named).get? "id" =
      some (.perOccurrence [.int64 (some 2), .int64 (some 5), .int64 none]) ∧
    (Survey.titleFirst.fetch .assoc).get? "id" = some (.scalar (.int64 none)) := by
  have hreordered : Reordered Survey.joinedRow.fields Survey.titleFirst.fields :=
    .swap (by decide) _
  obtain ⟨-, hseveral, -, -, -, hlast, hsame⟩ := fetch_keeps Survey.joinedRow
  have hid : (Survey.joinedRow.fetch .named).get? "id" =
      some (.perOccurrence [.int64 (some 2), .int64 (some 5), .int64 none]) :=
    (hseveral "id" _).2 ⟨by decide, by decide⟩
  have hfetch := (hsame Survey.titleFirst).2 hreordered
  refine ⟨hreordered, ?_, ?_⟩
  · rw [← hfetch .named, hid]
  · rw [← hfetch .assoc, hlast, hid]
    rfl

end QueryForest
