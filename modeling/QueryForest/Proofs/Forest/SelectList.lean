import QueryForest.Proofs.Forest.Passing
import QueryForest.Proofs.Row
import QueryForest.Statement.Select

namespace QueryForest

/-!
# Explicit select lists

A select list of columns with their tables says which table each value of a row comes from. A row
itself has only the names of the columns, and what is read for a table is found by the name and by
the number of tables before it that declare the column.

* `Select.columns?` — the columns of a select list, by their tables, when all items have one;
* `Row.ofColumns` — a row with a value for each of these columns;
* `Layout.pick` — the place in the select list of the column that is read for a table;
* `Layout.value_ofColumns` — a read fails or finds the value at that place, whatever the values are.
-/

/-- A column of a table in a select list. -/
structure SelectedColumn where
  table : String
  name : String
  deriving DecidableEq

/-- The columns of an item of a select list that belongs to a table; a star stands for the
`physical` columns of its table. -/
def Selection.columns? (physical : String → List String) : Selection → Option (List SelectedColumn)
  | field name =>
    match Sql.ColumnReference.ofName name.toList with
    | .qualified table column => some [⟨String.ofList table, String.ofList column⟩]
    | .everyOf table =>
      some ((physical (String.ofList table)).map fun column => ⟨String.ofList table, column⟩)
    | _ => none
  | function _ _ _ => none

/-- The columns of a select list whose items all belong to tables. -/
def Select.columns? (physical : String → List String) (s : Select) :
    Option (List SelectedColumn) :=
  (s.selections.mapM (Selection.columns? physical)).map List.flatten

/-- The row that has `value i` for the column at place `i` of a select list. -/
def Row.ofColumns (columns : List SelectedColumn) (value : Nat → Scalar) : Row :=
  ⟨columns.zipIdx.map fun c => (c.1.name, value c.2)⟩

/-- The places of the columns with a name. -/
def places (columns : List SelectedColumn) (name : String) : List Nat :=
  (columns.zipIdx.filter (·.1.name == name)).map (·.2)

namespace Row

variable {columns : List SelectedColumn}

/-- A row with one field for each column of a select list is given by the values. -/
theorem exists_ofColumns {row : Row} (h : row.fields.map Prod.fst = columns.map (·.name)) :
    ∃ value, row = ofColumns columns value := by
  have hlength : row.fields.length = columns.length := by
    simpa using congrArg List.length h
  -- the value at a place is the field there; behind the end any value will do
  refine ⟨fun i => (row.fields[i]?.map Prod.snd).getD (.boolean none), ?_⟩
  obtain ⟨fields⟩ := row
  refine congrArg Row.mk (List.ext_getElem? fun i => ?_)
  rw [List.getElem?_map, List.getElem?_zipIdx]
  have hname := congrArg (fun l => l[i]?) h
  simp only [List.getElem?_map] at hname
  cases hfield : fields[i]? with
  | none =>
    rw [hfield] at hname
    have hcolumn : columns[i]? = none := by
      cases hcolumn : columns[i]? with
      | none => rfl
      | some c => rw [hcolumn] at hname; cases hname
    rw [hcolumn]
    rfl
  | some field =>
    rw [hfield] at hname
    cases hcolumn : columns[i]? with
    | none => rw [hcolumn] at hname; cases hname
    | some c =>
      rw [hcolumn] at hname
      have hfst : field.1 = c.name := Option.some.inj hname
      simp [hfield, ← hfst]

/-- The field at a place is called like its column. -/
theorem getElem?_ofColumns (value : Nat → Scalar) (i : Nat) :
    (ofColumns columns value).fields[i]? = columns[i]?.map fun c => (c.name, value i) := by
  unfold ofColumns
  rw [List.getElem?_map, List.getElem?_zipIdx]
  cases columns[i]? <;> simp

/-- The names of the fields are those of the columns. -/
theorem names_ofColumns (value : Nat → Scalar) :
    (ofColumns columns value).fields.map Prod.fst = columns.map (·.name) := by
  refine List.ext_getElem? fun i => ?_
  rw [List.getElem?_map, List.getElem?_map, getElem?_ofColumns]
  cases columns[i]? <;> rfl

/-- The values under a name are those at its places. -/
theorem valuesOf_ofColumns (value : Nat → Scalar) (name : String) :
    Assoc.valuesOf name (ofColumns columns value).fields = (places columns name).map value := by
  unfold Assoc.valuesOf places ofColumns
  rw [List.filter_map, List.map_map, List.map_map]
  rfl

end Row

namespace Layout

variable (layout : Layout) (columns : List SelectedColumn) (node : Node)

/-- The place of the column that is read under a name for the table of a node. -/
def pick (name : String) : Option Nat :=
  match places columns name with
  | [] => none
  | [i] => some i
  | is => is[layout.occurrence node.position name]?

/-- Whether a column can be read for the table of a node: there is one with its name at most, or
the select list has the occurrence that is asked for. -/
def Legible (name : String) : Prop :=
  (places columns name).length ≤ 1 ∨
    layout.occurrence node.position name < (places columns name).length

variable {layout columns node}

/-- **Reading a row of a select list.** Whether it succeeds depends on the columns only, and the
value is the one at the place of the column. -/
theorem value_ofColumns (layout : Layout) (columns : List SelectedColumn) (node : Node)
    (value : Nat → Scalar) (name : String) :
    (layout.Legible columns node name ∧
      layout.value ((Row.ofColumns columns value).fetch .named) node name =
        .ok ((layout.pick columns node name).map value)) ∨
    (¬ layout.Legible columns node name ∧
      ∃ e, layout.value ((Row.ofColumns columns value).fetch .named) node name = .error e) := by
  have hget : ((Row.ofColumns columns value).fetch .named).get? name =
      Column.ofOccurrences ((places columns name).map value) := by
    rw [← Row.valuesOf_ofColumns]
    exact Row.get?_fetch_named name _
  unfold Legible pick Layout.value
  rw [hget]
  match hplaces : places columns name with
  | [] => exact Or.inl ⟨Or.inl (by simp), rfl⟩
  -- one occurrence is read whatever its number
  | [i] => exact Or.inl ⟨Or.inl (by simp), rfl⟩
  -- of several the one with the number of the table is read, if there are that many
  | i :: j :: rest =>
    simp only [List.map_cons, Column.ofOccurrences]
    rw [← List.map_cons, ← List.map_cons, List.getElem?_map]
    by_cases hlt : layout.occurrence node.position name < (i :: j :: rest).length
    · refine Or.inl ⟨Or.inr hlt, ?_⟩
      rw [List.getElem?_eq_getElem hlt]
      rfl
    · refine Or.inr ⟨?_, ?_⟩
      · simp only [List.length_cons] at hlt ⊢
        omega
      · rw [List.getElem?_eq_none (Nat.not_lt.1 hlt)]
        exact ⟨_, rfl⟩

/-- Reading such a row succeeds exactly where the select list is legible. -/
theorem value_ok_iff (value : Nat → Scalar) (name : String) :
    (∃ found, layout.value ((Row.ofColumns columns value).fetch .named) node name = .ok found) ↔
      layout.Legible columns node name := by
  rcases value_ofColumns layout columns node value name with
    ⟨h, heq⟩ | ⟨h, e, heq⟩
  · rw [heq]
    exact ⟨fun _ => h, fun _ => ⟨_, rfl⟩⟩
  · rw [heq]
    refine ⟨fun hok => ?_, fun hlegible => absurd hlegible h⟩
    obtain ⟨found, hfound⟩ := hok
    cases hfound

/-- A value that was read stands at the place of the column. -/
theorem reading_ofColumns {value : Nat → Scalar} {name : String} {v : Scalar}
    (h : layout.reading node name ((Row.ofColumns columns value).fetch .named) = some v) :
    ∃ i, layout.pick columns node name = some i ∧ value i = v := by
  unfold reading at h
  rcases value_ofColumns layout columns node value name with
    ⟨-, heq⟩ | ⟨-, e, heq⟩
  · rw [heq] at h
    exact Option.map_eq_some_iff.1 h
  · rw [heq] at h
    cases h

/-- A column that is read is legible. -/
theorem legible_of_pick {name : String} {i : Nat} (h : layout.pick columns node name = some i) :
    layout.Legible columns node name := by
  unfold pick at h
  unfold Legible
  split at h
  · cases h
  · next j hj =>
    rw [hj]
    exact Or.inl (Nat.le_refl 1)
  · exact Or.inr (List.getElem?_eq_some_iff.1 h).1

/-- The value at the place of a column that is read is what is read. -/
theorem reading_of_pick {name : String} {i : Nat} (h : layout.pick columns node name = some i)
    (value : Nat → Scalar) :
    layout.reading node name ((Row.ofColumns columns value).fetch .named) = some (value i) := by
  rcases value_ofColumns layout columns node value name with ⟨-, heq⟩ | ⟨hnot, -⟩
  · rw [reading_of_value heq, h]
    rfl
  · exact absurd (legible_of_pick h) hnot

/-- A row has a partner in a table when the column that is read for its key is not NULL. -/
theorem hasPartner_ofColumns (value : Nat → Scalar) :
    layout.hasPartner node ((Row.ofColumns columns value).fetch .named) = true ↔
      ∃ i, layout.pick columns node node.model.primaryKey = some i ∧ (value i).isNull = false := by
  unfold hasPartner
  rw [Option.any_eq_true]
  constructor
  · rintro ⟨v, hv, hnull⟩
    obtain ⟨i, hi, rfl⟩ := reading_ofColumns hv
    exact ⟨i, hi, by simpa using hnull⟩
  · rintro ⟨i, hi, hnull⟩
    exact ⟨value i, reading_of_pick hi value, by simpa using hnull⟩

/-- Rows of one select list can be read alike. -/
theorem covers_ofColumns (value value' : Nat → Scalar) :
    layout.Covers ((Row.ofColumns columns value).fetch .named)
      ((Row.ofColumns columns value').fetch .named) := by
  refine ⟨fun node h => ?_, fun node h => ?_⟩
  · rw [value_ok_iff] at h ⊢
    exact h
  · rw [check_eq_ok_iff] at h ⊢
    intro field hfield
    have hread := h field hfield
    rw [value_ok_iff] at hread ⊢
    exact hread

/-- A row of the same select list that is NULL where another one is can be assembled too. -/
theorem Assembles.ofColumns {value value' : Nat → Scalar}
    (h : layout.Assembles ((Row.ofColumns columns value).fetch .named))
    (hnull : ∀ i, (value' i).isNull = false → (value i).isNull = false) :
    layout.Assembles ((Row.ofColumns columns value').fetch .named) := by
  refine h.mono (covers_ofColumns value value') fun n hn => ?_
  obtain ⟨i, hi, hvalue⟩ := (hasPartner_ofColumns value').1 hn
  exact (hasPartner_ofColumns value).2 ⟨i, hi, hnull i hvalue⟩

end Layout

end QueryForest
