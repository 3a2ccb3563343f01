import QueryForest.Proofs.Forest.Passing
import QueryForest.Proofs.Row

namespace QueryForest

/-!
# Rows with one value per name

A row that was fetched with the last value of each name gives every table the same value under a
name, so that no occurrence can be missing from it.

* `Layout.readable_fetch_assoc` — every column can be read for every table;
* `assemble_fetch_assoc` — such rows can be assembled for every layout;
* `Layout.ofModel` and `recordsOf` — the layout of a model without relations, and the records that
  rows have in it.
-/

/-! ### Every table reads the same -/

namespace Layout

variable {layout : Layout}

/-- Where only last values are kept, reading gives the last value, for any table. -/
theorem value_fetch_assoc (row : Row) (node : Node) (column : String) :
    layout.value (row.fetch .assoc) node column = .ok (row.last? column) := by
  unfold value
  rw [Row.get?_fetch_assoc]
  cases row.last? column <;> rfl

/-- So it never fails. -/
theorem reading_fetch_assoc (row : Row) (node : Node) (column : String) :
    layout.reading node column (row.fetch .assoc) = row.last? column :=
  reading_of_value (value_fetch_assoc row node column)

/-- Every table can be read from such a row. -/
theorem readable_fetch_assoc (row : Row) (node : Node) :
    layout.Readable (row.fetch .assoc) node where
  key := ⟨_, value_fetch_assoc row node _⟩
  fields := check_eq_ok_iff.2 fun field _ => ⟨_, value_fetch_assoc row node field⟩

/-- All reads of an assembly of such rows succeed. -/
theorem probeForest_fetch_assoc (rows : List Row) :
    layout.probeForest (rows.map (Row.fetch .assoc)) = .ok () := by
  refine probeForest_of_assembles fun row hrow => ?_
  obtain ⟨source, -, rfl⟩ := List.mem_map.1 hrow
  exact assembles_of_readable fun node _ => readable_fetch_assoc source node

end Layout

/-- **Rows with one value per name can be assembled**, whatever they hold. -/
theorem assemble_fetch_assoc {base : Model} {joins : List Join} {layout : Layout}
    (h : Layout.ofJoins base joins = .ok layout) (rows : List Row) :
    assemble base joins (rows.map (Row.fetch .assoc)) =
      .ok (layout.forest (rows.map (Row.fetch .assoc))) := by
  rw [assemble_eq h, Layout.probeForest_fetch_assoc]
  rfl

/-! ### One table -/

/-- The layout of a model without relations. -/
def Layout.ofModel (model : Model) : Layout := ⟨[model], ⟨model, 0, []⟩⟩

/-- A request without joins is laid out as the base alone. -/
theorem Layout.ofJoins_nil (model : Model) : ofJoins model [] = .ok (ofModel model) := rfl

/-- The records of a model for some rows, the last value of each name. -/
def recordsOf (model : Model) (rows : List Row) : List Record :=
  (Layout.ofModel model).forest (rows.map (Row.fetch .assoc))

/-- **Without joins** an assembly succeeds, and gives the records of the rows. -/
theorem assemble_unjoined (model : Model) (rows : List Row) :
    assemble model [] (rows.map (Row.fetch .assoc)) = .ok (recordsOf model rows) :=
  assemble_fetch_assoc (Layout.ofJoins_nil model) rows

end QueryForest
