import Mathlib.Data.List.Permutation
import QueryForest.Proofs.Forest.SelectList
import QueryForest.Statement.Execute

namespace QueryForest

/-!
# Where the values of a forest come from

With an explicit select list every value of a row belongs to a table, and the records of a table
should have values of that table only. The assembler looks columns up by their names, so whether
they do is decided by the select list: by the columns that it reads for each table, as far as rows
can have records in that table at all.

* `Record.reached` — the records to which a path of relations leads;
* `KeepsTables` — every value of a forest is one of its own table in some row, and no related record
  is made from a row in which its own key is missing;
* `Layout.ReadsOwn` — the columns that are read for a table are its own;
* `Select.execute_keepsTables_iff` — all forests of a selection keep their tables exactly then.
-/

/-! ### Records below records -/

/-- The records that a path of relations leads to. -/
def Record.reached : List Node → Record → List Record
  | [], r => [r]
  | next :: path, r => (r.under next).flatMap (reached path)

namespace Layout

variable {layout : Layout} {node target : Node} {path : List Node}

/-- The records below a record are those of its rows. -/
theorem under_grouped (hsiblings : (node.nested.map (·.model.table)).Nodup) {next : Node}
    (hnext : next ∈ node.nested) (rows : List RawRow) :
    (layout.grouped node rows).under next = layout.children next rows := by
  unfold Record.under Record.related?
  rw [grouped_slots, groupedSlots_eq_map,
    Assoc.get?_map_of_nodup hsiblings (fun n => layout.children n rows) hnext]
  rfl

/-- A single row with a partner has one record. -/
theorem children_singleton {row : RawRow} (h : layout.hasPartner node row = true) :
    layout.children node [row] = [layout.grouped node [row]] := by
  have hfilter : [row].filter (layout.hasPartner node) = [row] :=
    List.filter_eq_self.2 fun r hr => List.mem_singleton.1 hr ▸ h
  unfold children partners
  rw [hfilter, groupsBy_singleton]
  rfl

/-- What is known below a node when no table occurs twice in its tree. -/
theorem nodup_below {next : Node} (h : (node.preorder.map (·.model.table)).Nodup)
    (hnext : next ∈ node.nested) :
    (node.nested.map (·.model.table)).Nodup ∧ (next.preorder.map (·.model.table)).Nodup := by
  rw [Node.preorder_eq, List.map_cons, List.nodup_cons] at h
  refine ⟨h.2.sublist ((Node.sublist_preorderAll _).map _), h.2.sublist ?_⟩
  exact (Node.preorder_sublist_preorderAll hnext).map _

/-- **The records that a path leads to** are those of groups of the rows, in which every relation of
the path has a partner. -/
theorem reached_grouped (hpath : node.Path path target)
    (hnodup : (node.preorder.map (·.model.table)).Nodup) {rows : List RawRow} (hne : rows ≠ [])
    {found : Record} (h : found ∈ (layout.grouped node rows).reached path) :
    ∃ group ⊆ rows, group ≠ [] ∧ found = layout.grouped target group ∧
      ∀ row ∈ group, ∀ n ∈ path, layout.hasPartner n row = true := by
  induction hpath generalizing rows with
  | here node =>
    rw [List.mem_singleton.1 h]
    exact ⟨rows, List.Subset.refl _, hne, rfl, fun _ _ _ hn => absurd hn List.not_mem_nil⟩
  | @into node next target path hmem hrest ih =>
    obtain ⟨hsiblings, hbelow⟩ := nodup_below hnodup hmem
    rw [Record.reached, under_grouped hsiblings hmem] at h
    obtain ⟨child, hchild, hfound⟩ := List.mem_flatMap.1 h
    obtain ⟨partners, hpartners, rfl⟩ := List.mem_map.1 hchild
    have hsubset := subset_of_mem_groupsBy hpartners
    obtain ⟨group, hgroup, hne', heq, hall⟩ := ih hbelow (ne_nil_of_mem_groupsBy hpartners) hfound
    refine ⟨group, fun row hrow => ?_, hne', heq, fun row hrow n hn => ?_⟩
    · exact (List.mem_filter.1 (hsubset (hgroup hrow))).1
    · rcases List.mem_cons.1 hn with rfl | hn
      · exact (List.mem_filter.1 (hsubset (hgroup hrow))).2
      · exact hall row hrow n hn

/-- A single row leads along a path to its own record when it has all partners on the way. -/
theorem reached_singleton (hpath : node.Path path target)
    (hnodup : (node.preorder.map (·.model.table)).Nodup) {row : RawRow}
    (h : ∀ n ∈ path, layout.hasPartner n row = true) :
    layout.grouped target [row] ∈ (layout.grouped node [row]).reached path := by
  induction hpath with
  | here node => exact List.mem_singleton.2 rfl
  | @into node next target path hmem hrest ih =>
    obtain ⟨hsiblings, hbelow⟩ := nodup_below hnodup hmem
    rw [Record.reached, under_grouped hsiblings hmem,
      children_singleton (h next List.mem_cons_self)]
    refine List.mem_flatMap.2 ⟨_, List.mem_singleton.2 rfl, ih hbelow fun n hn => ?_⟩
    exact h n (List.mem_cons_of_mem _ hn)

end Layout

/-! ### Keeping tables apart -/

/-- Whether a row has a value in a column of a table. -/
def Row.HoldsIn (columns : List SelectedColumn) (row : Row) (column : SelectedColumn)
    (value : Scalar) : Prop :=
  ∃ i : Nat, columns[i]? = some column ∧ row.fields[i]? = some (column.name, value)

/-- Whether rows have one field for each column of a select list, in its order. -/
def Answers (columns : List SelectedColumn) (rows : List Row) : Prop :=
  ∀ row ∈ rows, row.fields.map Prod.fst = columns.map (·.name)

/-- Whether no value of a forest comes from another table. -/
structure KeepsTables (layout : Layout) (columns : List SelectedColumn) (rows : List Row)
    (forest : List Record) : Prop where
  /-- The value of a field is one that some row has in the column of that table. -/
  values : ∀ r ∈ forest, ∀ path node, layout.root.Path path node → ∀ found ∈ r.reached path,
    ∀ e ∈ found.values, ∃ row ∈ rows, row.HoldsIn columns ⟨node.model.table, e.1⟩ e.2
  /-- A related record is read from a row that has the key of its table. -/
  key : ∀ r ∈ forest, ∀ path node, layout.root.Path path node → path ≠ [] →
    ∀ found ∈ r.reached path, ∃ row ∈ rows,
      found.values = layout.fieldsOf node (row.fetch .named) ∧ ∃ key, key.isNull = false ∧
        row.HoldsIn columns ⟨node.model.table, node.model.primaryKey⟩ key

namespace Layout

variable (layout : Layout) (columns : List SelectedColumn)

/-- Whether a column is read for the key of one of some nodes. -/
def isKeyOf (path : List Node) (i : Nat) : Bool :=
  path.any fun n => layout.pick columns n n.model.primaryKey == some i

/-- Values in the columns that are read for the keys of some nodes, and NULL in all others. -/
def keyValues (path : List Node) (i : Nat) : Scalar :=
  if layout.isKeyOf columns path i then .boolean (some true) else .boolean none

/-- The same with a value, or a NULL, of its own at one place. -/
def markedValues (path : List Node) (mark i : Nat) : Scalar :=
  if layout.isKeyOf columns path i then .boolean (some (i == mark))
  else if i = mark then .int32 none else .boolean none

/-- Whether the nodes of a path can have records: a column is read for the key of each of them, and
a row with values in these columns only is assembled. -/
def Arises (base : Model) (joins : List Join) (path : List Node) : Prop :=
  (∀ n ∈ path, (layout.pick columns n n.model.primaryKey).isSome = true) ∧
    ∃ forest, assemble base joins
      [(Row.ofColumns columns (layout.keyValues columns path)).fetch .named] = .ok forest

/-- Whether a select list has the columns of a table at the places where they are read for it,
unless the table cannot have records. -/
structure ReadsOwn (base : Model) (joins : List Join) : Prop where
  /-- The column that is read for a declared field is a column of the table. -/
  fields : ∀ path node, layout.root.Path path node → layout.Arises columns base joins path →
    ∀ field ∈ node.model.fields, ∀ i, layout.pick columns node field = some i →
      columns[i]? = some ⟨node.model.table, field⟩
  /-- The key column of a related table is among those read for the keys on the way to it. -/
  key : ∀ path node, layout.root.Path path node → path ≠ [] →
    layout.Arises columns base joins path →
      ∃ n ∈ path, ∃ i, layout.pick columns n n.model.primaryKey = some i ∧
        columns[i]? = some ⟨node.model.table, node.model.primaryKey⟩

variable {layout columns} {base : Model} {joins : List Join}

/-! ### Single rows -/

/-- A single row is assembled if it passes all reads, and is the only row of every record. -/
theorem assemble_singleton_iff (h : ofJoins base joins = .ok layout) (row : RawRow)
    (forest : List Record) : assemble base joins [row] = .ok forest ↔
      layout.Assembles row ∧ forest = [layout.grouped layout.root [row]] := by
  have hforest : layout.forest [row] = [layout.grouped layout.root [row]] := by
    unfold Layout.forest
    rw [groupsBy_singleton]
    rfl
  -- a single row has the same columns as itself
  have halike : ∀ a ∈ [row], ∀ b ∈ [row], layout.Covers a b := by
    intro a ha b hb
    rw [List.mem_singleton.1 ha, List.mem_singleton.1 hb]
    exact ⟨fun _ h => h, fun _ h => h⟩
  have hprobe := probeForest_eq_ok_iff halike
  rw [List.forall_mem_singleton] at hprobe
  rw [assemble_eq h, hforest, map_eq_ok]
  constructor
  · rintro ⟨⟨⟩, hok, rfl⟩
    exact ⟨hprobe.1 hok, rfl⟩
  · rintro ⟨hassembles, rfl⟩
    exact ⟨(), hprobe.2 hassembles, rfl⟩

/-- The columns of keys are those that are read for one of them. -/
theorem isKeyOf_iff {path : List Node} {i : Nat} : layout.isKeyOf columns path i = true ↔
    ∃ n ∈ path, layout.pick columns n n.model.primaryKey = some i := by
  unfold isKeyOf
  simp only [List.any_eq_true, beq_iff_eq]

/-- These values are NULL exactly outside the columns of keys. -/
theorem isNull_keyValues (path : List Node) (i : Nat) :
    (layout.keyValues columns path i).isNull = !layout.isKeyOf columns path i := by
  unfold keyValues
  cases layout.isKeyOf columns path i <;> rfl

/-- So are the values with a mark. -/
theorem isNull_markedValues (path : List Node) (mark i : Nat) :
    (layout.markedValues columns path mark i).isNull = !layout.isKeyOf columns path i := by
  unfold markedValues
  cases layout.isKeyOf columns path i with
  | true => rfl
  | false => by_cases h : i = mark <;> simp [h, Scalar.isNull]

/-- The value at the mark stands nowhere else. -/
theorem eq_of_markedValues {path : List Node} {mark i : Nat}
    (h : layout.markedValues columns path mark i = layout.markedValues columns path mark mark) :
    i = mark := by
  have hnull := congrArg Scalar.isNull h
  rw [isNull_markedValues, isNull_markedValues, Bool.not_inj_iff] at hnull
  unfold markedValues at h
  rw [hnull] at h
  by_cases hi : i = mark
  · exact hi
  · have hbeq : (i == mark) = false := beq_false_of_ne hi
    cases hkey : layout.isKeyOf columns path mark <;> simp [hkey, hi, hbeq] at h

/-- **Records of a path.** A row that is NULL exactly outside the key columns of a path leads to a
record there, if its nodes can have records. -/
theorem reached_of_arises (h : ofJoins base joins = .ok layout) {path : List Node} {node : Node}
    (hpath : layout.root.Path path node) (harises : layout.Arises columns base joins path)
    {value : Nat → Scalar} (hvalue : ∀ i, (value i).isNull = !layout.isKeyOf columns path i) :
    ∃ r, assemble base joins [(Row.ofColumns columns value).fetch .named] = .ok [r] ∧
      ∃ found ∈ r.reached path,
        found.values = layout.fieldsOf node ((Row.ofColumns columns value).fetch .named) := by
  obtain ⟨hkeys, forest, hforest⟩ := harises
  have hassembles := ((assemble_singleton_iff h _ _).1 hforest).1
  -- a row with values in fewer columns needs fewer reads
  have hown : layout.Assembles ((Row.ofColumns columns value).fetch .named) := by
    refine Assembles.ofColumns hassembles fun i hi => ?_
    rw [isNull_keyValues, ← hvalue]
    exact hi
  refine ⟨_, (assemble_singleton_iff h _ _).2 ⟨hown, rfl⟩, _, reached_singleton hpath
    (wellNumbered_ofJoins h).nodup fun n hn => ?_, grouped_values List.head?_cons node⟩
  obtain ⟨i, hi⟩ := Option.isSome_iff_exists.1 (hkeys n hn)
  refine (hasPartner_ofColumns value).2 ⟨i, hi, ?_⟩
  rw [hvalue, isKeyOf_iff.2 ⟨n, hn, hi⟩]
  rfl

/-- A row that is made for a select list answers it. -/
theorem answers_ofColumns (value : Nat → Scalar) :
    Answers columns [Row.ofColumns columns value] := by
  intro row hrow
  rw [List.mem_singleton.1 hrow]
  exact Row.names_ofColumns value

/-- A value of such a row stands at a place of its column. -/
theorem holdsIn_ofColumns {value : Nat → Scalar} {column : SelectedColumn} {v : Scalar}
    (h : (Row.ofColumns columns value).HoldsIn columns column v) :
    ∃ i, columns[i]? = some column ∧ value i = v := by
  obtain ⟨i, hcolumn, hi⟩ := h
  rw [Row.getElem?_ofColumns, hcolumn] at hi
  exact ⟨i, hcolumn, (Prod.ext_iff.1 (Option.some.inj hi)).2⟩

/-- **Where the tables are kept apart.** If the forests of all answers keep their tables, then what
is read for a table is its own. -/
theorem readsOwn_of_keepsTables (h : ofJoins base joins = .ok layout)
    (hkeeps : ∀ rows forest, Answers columns rows →
      assemble base joins (rows.map (Row.fetch .named)) = .ok forest →
        KeepsTables layout columns rows forest) :
    layout.ReadsOwn columns base joins := by
  refine ⟨fun path node hpath harises field hfield i hpick => ?_,
    fun path node hpath hne harises => ?_⟩
  · -- the field holds what is in the column that is read, and no other column has that
    obtain ⟨r, hassemble, found, hfound, hvalues⟩ :=
      reached_of_arises h hpath harises (isNull_markedValues path i)
    have hmem : (field, layout.markedValues columns path i i) ∈ found.values := by
      rw [hvalues]
      exact mem_foundEntries.2 ⟨hfield, reading_of_pick hpick _⟩
    obtain ⟨row, hrow, hholds⟩ := (hkeeps _ _ (answers_ofColumns _) hassemble).values r
      (List.mem_singleton.2 rfl) path node hpath found hfound _ hmem
    rw [List.mem_singleton.1 hrow] at hholds
    obtain ⟨j, hcolumn, hj⟩ := holdsIn_ofColumns hholds
    exact eq_of_markedValues hj ▸ hcolumn
  · -- the key is in a column that is not NULL in this row
    obtain ⟨r, hassemble, found, hfound, -⟩ :=
      reached_of_arises h hpath harises (isNull_keyValues path)
    obtain ⟨row, hrow, -, key, hnull, hholds⟩ := (hkeeps _ _ (answers_ofColumns _) hassemble).key r
      (List.mem_singleton.2 rfl) path node hpath hne found hfound
    rw [List.mem_singleton.1 hrow] at hholds
    obtain ⟨j, hcolumn, rfl⟩ := holdsIn_ofColumns hholds
    rw [isNull_keyValues, Bool.not_eq_false'] at hnull
    obtain ⟨n, hn, hpick⟩ := isKeyOf_iff.1 hnull
    exact ⟨n, hn, j, hpick, hcolumn⟩

/-- A record in the forest of some rows has the fields of one of them, and that row has values in
all key columns on the way to the record. -/
theorem exists_row_of_reached (h : ofJoins base joins = .ok layout) {rows : List Row}
    (hanswers : Answers columns rows)
    (hprobe : layout.probeForest (rows.map (Row.fetch .named)) = .ok ()) {r found : Record}
    (hr : r ∈ layout.forest (rows.map (Row.fetch .named))) {path : List Node} {node : Node}
    (hpath : layout.root.Path path node) (hfound : found ∈ r.reached path) :
    ∃ value, Row.ofColumns columns value ∈ rows ∧
      found.values = layout.fieldsOf node ((Row.ofColumns columns value).fetch .named) ∧
      layout.Assembles ((Row.ofColumns columns value).fetch .named) ∧
      ∀ n ∈ path, ∃ i, layout.pick columns n n.model.primaryKey = some i ∧
        (value i).isNull = false := by
  -- every row is given by the values it has at the places of the select list
  have hgiven : ∀ raw ∈ rows.map (Row.fetch .named), ∃ value,
      Row.ofColumns columns value ∈ rows ∧ raw = (Row.ofColumns columns value).fetch .named := by
    intro raw hraw
    obtain ⟨row, hrow, rfl⟩ := List.mem_map.1 hraw
    obtain ⟨value, rfl⟩ := Row.exists_ofColumns (hanswers row hrow)
    exact ⟨value, hrow, rfl⟩
  have halike : ∀ a ∈ rows.map (Row.fetch .named), ∀ b ∈ rows.map (Row.fetch .named),
      layout.Covers a b := by
    intro a ha b hb
    obtain ⟨value, -, rfl⟩ := hgiven a ha
    obtain ⟨value', -, rfl⟩ := hgiven b hb
    exact covers_ofColumns value value'
  obtain ⟨all, hall, rfl⟩ := List.mem_map.1 hr
  obtain ⟨group, hgroup, hne, rfl, hpartners⟩ := reached_grouped hpath
    (wellNumbered_ofJoins h).nodup (ne_nil_of_mem_groupsBy hall) hfound
  -- the record has the fields of the first row of its group
  obtain ⟨raw, others, rfl⟩ := List.exists_cons_of_ne_nil hne
  have hraw := subset_of_mem_groupsBy hall (hgroup List.mem_cons_self)
  obtain ⟨value, hrow, rfl⟩ := hgiven raw hraw
  refine ⟨value, hrow, grouped_values List.head?_cons node,
    (probeForest_eq_ok_iff halike).1 hprobe _ hraw, fun n hn => ?_⟩
  exact (hasPartner_ofColumns value).1 (hpartners _ List.mem_cons_self n hn)

/-- Records can arise wherever a row that is assembled has values in all key columns. -/
theorem Arises.of_row (h : ofJoins base joins = .ok layout) {value : Nat → Scalar}
    (hassembles : layout.Assembles ((Row.ofColumns columns value).fetch .named)) {path : List Node}
    (hkeys : ∀ n ∈ path, ∃ i, layout.pick columns n n.model.primaryKey = some i ∧
      (value i).isNull = false) : layout.Arises columns base joins path := by
  refine ⟨fun n hn => ?_, _, (assemble_singleton_iff h _ _).2 ⟨?_, rfl⟩⟩
  · obtain ⟨i, hi, -⟩ := hkeys n hn
    rw [hi]
    rfl
  · -- the row with values in the key columns only is assembled like the given one
    refine hassembles.ofColumns fun i hi => ?_
    rw [isNull_keyValues, Bool.not_eq_false'] at hi
    obtain ⟨n, hn, hpick⟩ := isKeyOf_iff.1 hi
    obtain ⟨j, hj, hnull⟩ := hkeys n hn
    rw [hpick] at hj
    exact Option.some.inj hj ▸ hnull

/-- **How the tables are kept apart.** If what is read for a table is its own, then the forest of
every answer keeps its tables. -/
theorem keepsTables_of_readsOwn (h : ofJoins base joins = .ok layout)
    (hown : layout.ReadsOwn columns base joins) {rows : List Row} {forest : List Record}
    (hanswers : Answers columns rows)
    (hforest : assemble base joins (rows.map (Row.fetch .named)) = .ok forest) :
    KeepsTables layout columns rows forest := by
  rw [assemble_eq h] at hforest
  obtain ⟨⟨⟩, hprobe, rfl⟩ := map_eq_ok.1 hforest
  refine ⟨fun r hr path node hpath found hfound e he => ?_,
    fun r hr path node hpath hne found hfound => ?_⟩
  · -- a value of the record was read in one row, from the column that is its own
    obtain ⟨value, hrow, hvalues, hassembles, hkeys⟩ :=
      exists_row_of_reached h hanswers hprobe hr hpath hfound
    rw [hvalues] at he
    obtain ⟨hfield, hread⟩ := mem_foundEntries.1 he
    obtain ⟨i, hpick, hi⟩ := reading_ofColumns hread
    have hcolumn :=
      hown.fields path node hpath (Arises.of_row h hassembles hkeys) e.1 hfield i hpick
    refine ⟨_, hrow, i, hcolumn, ?_⟩
    rw [Row.getElem?_ofColumns, hcolumn, ← hi]
    rfl
  · obtain ⟨value, hrow, hvalues, hassembles, hkeys⟩ :=
      exists_row_of_reached h hanswers hprobe hr hpath hfound
    -- the same row has a value in the key column that is the table's own
    obtain ⟨n, hn, i, hpick, hcolumn⟩ :=
      hown.key path node hpath hne (Arises.of_row h hassembles hkeys)
    obtain ⟨j, hj, hnull⟩ := hkeys n hn
    rw [hpick] at hj
    cases hj
    refine ⟨_, hrow, hvalues, value i, hnull, i, hcolumn, ?_⟩
    rw [Row.getElem?_ofColumns, hcolumn]
    rfl

end Layout

/-! ### Selections -/

/-- A run goes on from the state in which its first step ends. -/
theorem Run.run_bind {σ α β : Type} {x : Run σ α} {f : α → Run σ β} {before after : σ} {a : α}
    (h : x.run.run before = (.ok a, after)) :
    (x >>= f).run.run before = (f a).run.run after := by
  rw [ExceptT.run_bind, StateT.run_bind, h]
  rfl

/-- A result that is there leaves the state. -/
theorem Run.run_ofExcept {σ α : Type} {result : Except Error α} {a : α} (h : result = .ok a)
    (before : σ) : (Run.ofExcept result : Run σ α).run.run before = (.ok a, before) := by
  rw [h]
  rfl

/-- A call that succeeds is a step. -/
theorem Run.run_call {σ α : Type} {f : σ → Except String α × σ} {before after : σ} {a : α}
    (h : f before = (.ok a, after)) : (Run.call f).run.run before = (.ok a, after) := by
  rw [Run.call, ExceptT.run_mk, StateT.run, h]
  rfl

namespace Select

/-- Whether the forests of a selection keep their tables, whatever the database answers with one
field for each column of the select list. -/
def KeepsTables (s : Select) (layout : Layout) (physical : String → List String) : Prop :=
  ∀ columns, s.columns? physical = some columns →
    ∀ (σ : Type) (c : Connection σ) (before after : σ) query rows forest, s.build = .ok query →
      c.query query before = (.ok rows, after) → Answers columns rows →
      (s.execute c).run.run before = (.ok forest, after) →
        QueryForest.KeepsTables layout columns rows forest

/-- Whether the select list of a selection that can be sent has the columns of each table where
they are read for it. -/
def ReadsOwn (s : Select) (layout : Layout) (physical : String → List String) : Prop :=
  ∀ columns, s.columns? physical = some columns → ∀ query, s.build = .ok query →
    layout.ReadsOwn columns s.model s.joins

/-- A selection that can be built is one query, and its rows are assembled. -/
theorem executeIn_eq {σ : Type} {s : Select} {query : Query} (h : s.build = .ok query)
    (mode : FetchMode) {c : Connection σ} {before after : σ} {rows : List Row}
    (hrows : c.query query before = (.ok rows, after)) :
    (s.executeIn c mode).run.run before =
      ((assemble s.model s.joins (rows.map (Row.fetch mode))).mapError .resolution, after) := by
  have hfetch : (s.fetch c mode).run.run before = (.ok (rows.map (Row.fetch mode)), after) := by
    unfold fetch
    rw [Run.run_bind (Run.run_ofExcept h before), Run.run_bind (Run.run_call hrows)]
    rfl
  unfold executeIn
  rw [Run.run_bind hfetch]
  rfl

/-- A selection that is answered gives the assembly of the answer. -/
theorem execute_eq {σ : Type} {s : Select} {query : Query} (h : s.build = .ok query)
    {c : Connection σ} {before after : σ} {rows : List Row}
    (hrows : c.query query before = (.ok rows, after)) :
    (s.execute c).run.run before =
      ((assemble s.model s.joins (rows.map (Row.fetch .named))).mapError .resolution, after) :=
  executeIn_eq h .named hrows

/-- **No value crosses tables** exactly for the select lists that have the columns of each table
where they are read for it. -/
theorem execute_keepsTables_iff {s : Select} {layout : Layout}
    (h : Layout.ofJoins s.model s.joins = .ok layout) (physical : String → List String) :
    s.KeepsTables layout physical ↔ s.ReadsOwn layout physical := by
  constructor
  · intro hkeeps columns hcolumns query hbuild
    refine Layout.readsOwn_of_keepsTables h fun rows forest hanswers hforest => ?_
    -- any rows are those of some connection
    let c : Connection Unit := ⟨fun _ _ => (.ok rows, ()), fun _ _ => (.error "", ())⟩
    refine hkeeps columns hcolumns Unit c () () query rows forest hbuild rfl hanswers ?_
    rw [execute_eq hbuild rfl, hforest]
    rfl
  · intro hown columns hcolumns σ c before after query rows forest hbuild hrows hanswers hforest
    rw [execute_eq hbuild hrows] at hforest
    cases hassemble : assemble s.model s.joins (rows.map (Row.fetch .named)) with
    | error e =>
      rw [hassemble] at hforest
      cases hforest
    | ok found =>
      rw [hassemble] at hforest
      cases hforest
      exact Layout.keepsTables_of_readsOwn h (hown columns hcolumns query hbuild) hanswers hassemble

end Select

namespace Survey

/-- Exercises with their questions, as tables of a query. -/
def pair : Layout := ⟨[exercises, questions], ⟨exercises, 0, [⟨questions, 1, []⟩]⟩⟩

/-- The columns of a table. -/
def physical (table : String) : List String :=
  if table = "exercises" then exercises.fields else questions.fields

/-- Exercises with their questions, with a select list. -/
def listing (names : List String) : Select :=
  (Select.ofSelections exercises (names.map .field)).join ⟨questions, []⟩

/-- All columns of both tables. -/
def everything : List String :=
  ["exercises.*", "questions.id", "questions.label", "questions.exercises_id"]

/-- With all columns of both tables, each is read for its own table. -/
theorem readsOwn_everything : (listing everything).ReadsOwn pair physical := by
  intro columns hcolumns query _
  -- what is read for each table at each of its fields, by evaluation
  have hown : ∀ n ∈ [pair.root, ⟨questions, 1, []⟩], ∀ field ∈ n.model.fields,
      ((pair.pick columns n field).bind fun i => columns[i]?) = some ⟨n.model.table, field⟩ := by
    have heq : columns = [⟨"exercises", "id"⟩, ⟨"exercises", "title"⟩, ⟨"questions", "id"⟩,
        ⟨"questions", "label"⟩, ⟨"questions", "exercises_id"⟩] :=
      (Option.some.inj (hcolumns.symm.trans (by decide)))
    rw [heq]
    decide
  -- there are two ways only, to the base table and to its relation
  have hnode : ∀ path node, pair.root.Path path node →
      path = [] ∧ node = pair.root ∨ path = [node] ∧ node = ⟨questions, 1, []⟩ := by
    intro path node hpath
    cases hpath with
    | here => exact Or.inl ⟨rfl, rfl⟩
    | into hmem hrest =>
      rw [List.mem_singleton.1 hmem] at hrest ⊢
      cases hrest with
      | here => exact Or.inr ⟨rfl, rfl⟩
      | into hmem' _ => cases hmem'
  refine ⟨fun path node hpath _ field hfield i hpick => ?_, fun path node hpath hne _ => ?_⟩
  · have hmem : node ∈ [pair.root, ⟨questions, 1, []⟩] := by
      rcases hnode path node hpath with ⟨-, rfl⟩ | ⟨-, rfl⟩ <;> simp
    have h := hown node hmem field hfield
    rw [hpick] at h
    exact h
  · rcases hnode path node hpath with ⟨hnil, -⟩ | ⟨hpath, rfl⟩
    · exact absurd hnil hne
    · obtain ⟨i, hpick, hi⟩ := Option.bind_eq_some_iff.1
        (hown ⟨questions, 1, []⟩ (by simp) "id" (by decide))
      exact ⟨_, by rw [hpath]; exact List.mem_cons_self, i, hpick, hi⟩

end Survey

/-- All columns of both tables in the select list keep the tables apart. -/
theorem Select.execute_keepsTables_iff_survey :
    Layout.ofJoins Survey.exercises [⟨Survey.questions, []⟩] = .ok Survey.pair ∧
      (Survey.listing Survey.everything).KeepsTables Survey.pair Survey.physical := by
  have hlayout : Layout.ofJoins Survey.exercises [⟨Survey.questions, []⟩] = .ok Survey.pair := rfl
  exact ⟨hlayout, (execute_keepsTables_iff (s := Survey.listing Survey.everything) hlayout
    Survey.physical).2 Survey.readsOwn_everything⟩

/-- With the columns of exercises only, the key of an exercise is read as the key of a question, and
the exercise gets a question that no row has. -/
theorem Select.not_keepsTables_starred :
    ¬ (Survey.listing ["exercises.*"]).KeepsTables Survey.pair Survey.physical := by
  intro hkeeps
  let row : Row := ⟨[("id", .int64 (some 1)), ("title", .text (some "T"))]⟩
  let c : Connection Unit := ⟨fun _ _ => (.ok [row], ()), fun _ _ => (.error "", ())⟩
  let stray : Record := ⟨Survey.questions, [("id", .int64 (some 1))], []⟩
  have hcolumns : (Survey.listing ["exercises.*"]).columns? Survey.physical =
      some [⟨"exercises", "id"⟩, ⟨"exercises", "title"⟩] := by decide
  have hassemble : assemble Survey.exercises [⟨Survey.questions, []⟩] [row.fetch .named] =
      .ok [Survey.exercise 1 [stray]] := by
    cbv
  obtain ⟨query, hbuild⟩ : ∃ query, (Survey.listing ["exercises.*"]).build = .ok query := ⟨_, rfl⟩
  have hforest : ((Survey.listing ["exercises.*"]).execute c).run.run () =
      (.ok [Survey.exercise 1 [stray]], ()) := by
    rw [execute_eq hbuild rfl]
    exact congrArg (fun result => (Except.mapError Error.resolution result, ())) hassemble
  have hanswers : Answers [⟨"exercises", "id"⟩, ⟨"exercises", "title"⟩] [row] := by
    intro r hr
    rw [List.mem_singleton.1 hr]
    rfl
  have hpath : Survey.pair.root.Path [⟨Survey.questions, 1, []⟩] ⟨Survey.questions, 1, []⟩ :=
    .into (List.mem_singleton.2 rfl) (.here _)
  obtain ⟨-, -, i, hi, -⟩ := (hkeeps _ hcolumns Unit c () () query [row] _ hbuild rfl hanswers
    hforest).values _ List.mem_cons_self _ _ hpath stray (List.mem_singleton.2 rfl)
      ("id", .int64 (some 1)) (List.mem_singleton.2 rfl)
  -- no column of the select list is one of questions
  have hmem := List.mem_of_getElem? hi
  revert hmem
  decide

end QueryForest
