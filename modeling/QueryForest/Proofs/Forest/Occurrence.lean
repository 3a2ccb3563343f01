import QueryForest.Proofs.Forest.Presence

namespace QueryForest

/-!
# The occurrence rule

The select list of a joined query is written from the declared fields of its tables, a row is
grouped by the names of its columns, and a column is read for a table by counting the tables before
it. The three agree: whatever other tables declare a column of the same name, each table reads the
value of its own column.

* `Layout.nodup_columns` — no column of the default select list occurs twice;
* `Row.holdsIn_iff` — so a row has one value in each of them;
* `value_own` — and that value is the one that is read.
-/

/-- A row has one value in a column that a select list has once. -/
theorem Row.holdsIn_iff {columns : List SelectedColumn} (hnodup : columns.Nodup)
    {column : SelectedColumn} {i : Nat} (hi : columns[i]? = some column) (value : Nat → Scalar)
    (v : Scalar) : (ofColumns columns value).HoldsIn columns column v ↔ v = value i := by
  constructor
  · intro h
    obtain ⟨j, hj, rfl⟩ := Layout.holdsIn_ofColumns h
    -- the column stands at one place
    have hlt := (List.getElem?_eq_some_iff.1 hj).1
    have hji : j = i := (List.getElem?_inj hlt hnodup).1 (hj.trans hi.symm)
    rw [hji]
  · rintro rfl
    refine ⟨i, hi, ?_⟩
    rw [getElem?_ofColumns, hi]
    rfl

namespace Layout

variable {layout : Layout} {base : Model} {joins : List Join}

/-- No column of the default select list occurs twice: the tables are different, and no model lists
a field twice. -/
theorem nodup_columns (h : ofJoins base joins = .ok layout)
    (hfields : ∀ m ∈ layout.tables, m.fields.Nodup) : layout.columns.Nodup := by
  have hnumbered := wellNumbered_ofJoins h
  have htables : (layout.tables.map Model.table).Nodup := by
    rw [hnumbered.tables_eq, List.map_map]
    exact hnumbered.nodup
  refine List.nodup_flatMap.2 ⟨fun m hm => ?_, ?_⟩
  · refine (hfields m hm).map fun a b hab => ?_
    exact congrArg SelectedColumn.name hab
  · refine (List.pairwise_map.1 htables).imp fun hne column hcolumn hother => hne ?_
    obtain ⟨a, -, rfl⟩ := List.mem_map.1 hcolumn
    obtain ⟨b, -, hb⟩ := List.mem_map.1 hother
    exact (congrArg SelectedColumn.table hb).symm

end Layout

/-- **The occurrence rule matches the select list.** Where no model lists a field twice, a row of
the default select list of a joined query has one value in each column of each table; and the read
of that column for the table succeeds and gives this value, whichever tables have columns of the
same name. -/
theorem value_own {base : Model} {joins : List Join} {layout : Layout}
    (h : Layout.ofJoins base joins = .ok layout) (hfields : ∀ m ∈ layout.tables, m.fields.Nodup) :
    (∀ (s : Select) (planned : List PlannedJoin), s.model = base → s.joins = joins →
      s.selections = [] → plan base joins = .ok planned → planned ≠ [] →
        s.items planned = layout.columns.map fun c => Sql.qualifiedText c.table c.name) ∧
    ∀ row : Row, row.fields.map Prod.fst = layout.columns.map (·.name) →
      ∀ node : Node, layout.tables[node.position]? = some node.model →
        ∀ column ∈ node.model.fields, ∃ v,
          (∀ w, row.HoldsIn layout.columns ⟨node.model.table, column⟩ w ↔ w = v) ∧
            layout.value (row.fetch .named) node column = .ok (some v) := by
  refine ⟨?_, fun row hrow node hnode column hcolumn => ?_⟩
  · rintro s planned rfl rfl hselections hplan hplanned
    exact Select.items_joined hplan h hselections hplanned
  · obtain ⟨value, rfl⟩ := Row.exists_ofColumns hrow
    obtain ⟨i, hpick, hi⟩ := Layout.pick_own hfields hnode hcolumn
    refine ⟨value i, Row.holdsIn_iff (Layout.nodup_columns h hfields) hi value, ?_⟩
    -- the place that is picked is that of the table's own column, and one that is picked can be
    -- read
    rcases Layout.value_ofColumns layout layout.columns node value column with
      ⟨-, hvalue⟩ | ⟨hnot, -⟩
    · rw [hvalue, hpick]
      rfl
    · exact absurd (Layout.legible_of_pick hpick) hnot

namespace Survey

/-- A row of all three tables, with a key of another kind for each of them. -/
def kinds : Row :=
  ⟨[("id", .int64 (some 1)), ("title", .text (some "T")), ("id", .text (some "q")),
    ("label", .text none), ("exercises_id", .int64 (some 1)), ("id", .boolean (some true)),
    ("questions_id", .text (some "q"))]⟩

end Survey

/-- Three tables with a column of the same name. -/
theorem value_own_survey :
    Layout.ofJoins Survey.exercises Survey.joins = .ok Survey.layout ∧
      (∀ m ∈ Survey.layout.tables, m.fields.Nodup) ∧
      Survey.kinds.fields.map Prod.fst = Survey.layout.columns.map (·.name) ∧
      Survey.layout.value (Survey.kinds.fetch .named) ⟨Survey.responses, 2, []⟩ "id" =
        .ok (some (.boolean (some true))) := by
  have hlayout : Layout.ofJoins Survey.exercises Survey.joins = .ok Survey.layout := rfl
  have hfields : ∀ m ∈ Survey.layout.tables, m.fields.Nodup := by decide
  have hrow : Survey.kinds.fields.map Prod.fst = Survey.layout.columns.map (·.name) := rfl
  obtain ⟨v, hv, hvalue⟩ := (value_own hlayout hfields).2 Survey.kinds hrow
    ⟨Survey.responses, 2, []⟩ rfl "id" (by decide)
  have hholds : v = .boolean (some true) := ((hv _).1 ⟨5, rfl, rfl⟩).symm
  exact ⟨hlayout, hfields, hrow, hholds ▸ hvalue⟩

end QueryForest
