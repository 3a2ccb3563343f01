import QueryForest.Proofs.Forest.Provenance

namespace QueryForest

/-!
# Presence of related records

The default select list of a joined query names every declared field of every table, and a row
without a partner in some table has NULLs in the columns of that table. Whether it has a partner is
judged by the key of the table alone, under its name; so where a model leaves its key out of its
fields, the key column of another table may be taken for it.

* `Layout.columns` — the default select list; `Layout.pick_own` — declared fields are read from it
  for their own tables;
* `PresenceIsOwn` — all rows are assembled, and a row that is NULL in the columns of a table and of
  the tables below it adds no record of that table;
* `Layout.KeysBelong` — the keys on the way to a related table can be read, and one of them is read
  from that table or from one below it;
* `presenceIsOwn_iff` — presence is judged by a table's own columns exactly then.
-/

/-! ### Places of columns -/

section Places

variable {columns : List SelectedColumn} {name : String}

/-- The places of a name are those of the columns that are called so. -/
theorem mem_places {i : Nat} :
    i ∈ places columns name ↔ ∃ c, columns[i]? = some c ∧ c.name = name := by
  unfold places
  rw [List.mem_map]
  constructor
  · rintro ⟨⟨c, j⟩, hmem, rfl⟩
    obtain ⟨hmem, hname⟩ := List.mem_filter.1 hmem
    exact ⟨c, List.mem_zipIdx_iff_getElem?.1 hmem, by simpa using hname⟩
  · rintro ⟨c, hc, hname⟩
    refine ⟨(c, i), List.mem_filter.2 ⟨List.mem_zipIdx_iff_getElem?.2 hc, ?_⟩, rfl⟩
    simpa using hname

/-- There are as many places as columns with the name. -/
theorem length_places : (places columns name).length = columns.countP (·.name == name) := by
  unfold places
  rw [List.length_map, ← List.countP_eq_length_filter]
  conv_rhs => rw [← List.zipIdx_map_fst 0 columns, List.countP_map]
  rfl

/-- The places in two select lists, one behind the other. -/
theorem places_append (columns more : List SelectedColumn) (name : String) :
    places (columns ++ more) name =
      places columns name ++ (places more name).map (columns.length + ·) := by
  have hmore : more.zipIdx columns.length =
      more.zipIdx.map fun c => (c.1, columns.length + c.2) := List.zipIdx_eq_map_add
  unfold places
  rw [List.zipIdx_append, List.filter_append, List.map_append, Nat.zero_add, hmore,
    List.filter_map, List.map_map, List.map_map]
  rfl

end Places

/-- The declared fields of a model as columns of its table. -/
def Model.columns (m : Model) : List SelectedColumn := m.fields.map fun field => ⟨m.table, field⟩

/-- The columns of the default select list of a joined query: every declared field of every table,
in the order of the tables. -/
def Layout.columns (layout : Layout) : List SelectedColumn := layout.tables.flatMap Model.columns

/-- The default select list of a joined query is the one of these columns. -/
theorem Select.items_joined {s : Select} {planned : List PlannedJoin} {layout : Layout}
    (hplan : plan s.model s.joins = .ok planned) (h : Layout.ofJoins s.model s.joins = .ok layout)
    (hselections : s.selections = []) (hplanned : planned ≠ []) :
    s.items planned = layout.columns.map fun c => Sql.qualifiedText c.table c.name := by
  unfold Layout.ofJoins at h
  rw [hplan] at h
  cases h
  unfold items Layout.columns declaredColumns
  rw [hselections, List.isEmpty_nil, if_pos rfl, List.isEmpty_eq_false_iff.2 hplanned,
    List.map_flatMap]
  refine List.flatMap_congr fun m _ => ?_
  unfold Model.columns
  rw [List.map_map]
  rfl

/-- A declared field has a place among the columns of its model. -/
theorem Model.exists_place {m : Model} {field : String} (h : field ∈ m.fields) :
    ∃ i others, places m.columns field = i :: others ∧ m.columns[i]? = some ⟨m.table, field⟩ := by
  have hmem : (⟨m.table, field⟩ : SelectedColumn) ∈ m.columns := List.mem_map_of_mem h
  obtain ⟨j, hj⟩ := List.mem_iff_getElem?.1 hmem
  obtain ⟨i, others, hplaces⟩ := List.exists_cons_of_ne_nil
    (List.ne_nil_of_mem (mem_places.2 ⟨_, hj, rfl⟩))
  refine ⟨i, others, hplaces, ?_⟩
  obtain ⟨c, hc, hname⟩ := mem_places.1 (hplaces ▸ List.mem_cons_self)
  obtain ⟨f, -, rfl⟩ := List.mem_map.1 (List.mem_of_getElem? hc)
  have hf : f = field := hname
  rw [hc, hf]

/-- Each name occurs once for each table that declares it. -/
theorem countP_columns {models : List Model} (hfields : ∀ m ∈ models, m.fields.Nodup)
    (name : String) : (models.flatMap Model.columns).countP (·.name == name) =
      models.countP (·.declares name) := by
  induction models with
  | nil => rfl
  | cons m rest ih =>
    have hm : m.columns.countP (·.name == name) = if m.declares name then 1 else 0 := by
      unfold Model.columns Model.declares
      rw [List.countP_map]
      have hcount := (hfields m List.mem_cons_self).count (a := name)
      simp only [List.contains_iff_mem]
      rw [← hcount]
      rfl
    rw [List.flatMap_cons, List.countP_append, List.countP_cons, hm,
      ih fun n hn => hfields n (List.mem_cons_of_mem _ hn), Nat.add_comm]

namespace Layout

variable {layout : Layout} {node : Node}

/-- The column of an occurrence that is there is read. -/
theorem pick_of_getElem? {columns : List SelectedColumn} {name : String} {i : Nat}
    (h : (places columns name)[layout.occurrence node.position name]? = some i) :
    layout.pick columns node name = some i := by
  unfold pick
  split
  · next hplaces =>
    rw [hplaces] at h
    cases h
  · next j hplaces =>
    rw [hplaces, List.getElem?_singleton] at h
    split at h
    · exact h
    · cases h
  · exact h

/-- **A declared field** is read from the column of its own table. -/
theorem pick_own (hfields : ∀ m ∈ layout.tables, m.fields.Nodup)
    (hnode : layout.tables[node.position]? = some node.model) {field : String}
    (hfield : field ∈ node.model.fields) : ∃ i, layout.pick layout.columns node field = some i ∧
      layout.columns[i]? = some ⟨node.model.table, field⟩ := by
  -- the columns before the table, those of the table, and those behind it
  obtain ⟨hlt, hmodel⟩ := List.getElem?_eq_some_iff.1 hnode
  have hcolumns : layout.columns =
      (layout.tables.take node.position).flatMap Model.columns ++ (node.model.columns ++
        (layout.tables.drop (node.position + 1)).flatMap Model.columns) := by
    unfold columns
    rw [← List.flatMap_cons, ← List.flatMap_append, ← hmodel, ← List.drop_eq_getElem_cons hlt,
      List.take_append_drop]
  -- as many columns with the name stand before the table as there are tables that declare it
  have hearlier : (places ((layout.tables.take node.position).flatMap Model.columns) field).length =
      layout.occurrence node.position field := by
    rw [length_places, countP_columns fun m hm => hfields m (List.mem_of_mem_take hm)]
    rfl
  obtain ⟨k, others, hplaces, hk⟩ := Model.exists_place hfield
  refine ⟨((layout.tables.take node.position).flatMap Model.columns).length + k,
    pick_of_getElem? ?_, ?_⟩
  · rw [hcolumns, places_append, places_append, hplaces, ← hearlier,
      List.getElem?_append_right (Nat.le_refl _), Nat.sub_self]
    rfl
  · rw [hcolumns, List.getElem?_append_right (Nat.le_add_right _ _), Nat.add_sub_cancel_left,
      List.getElem?_append_left (List.getElem?_eq_some_iff.1 hk).1]
    exact hk

end Layout

/-! ### Judging presence -/

/-- Whether all values are NULL that a row has in the columns of a node's table and of the tables
below it. -/
def Row.NullBelow (columns : List SelectedColumn) (node : Node) (row : Row) : Prop :=
  ∀ column value, column.table ∈ node.preorder.map (·.model.table) →
    row.HoldsIn columns column value → value.isNull = true

/-- Whether the records of related tables are there by the columns of these tables, in rows of the
default select list. -/
structure PresenceIsOwn (base : Model) (joins : List Join) (layout : Layout) : Prop where
  /-- No row is turned down. -/
  assembles : ∀ rows, Answers layout.columns rows →
    ∃ forest, assemble base joins (rows.map (Row.fetch .named)) = .ok forest
  /-- A row that is NULL in a table and below adds no record of it, whatever record it is entered
  into. -/
  absent : ∀ path parent, layout.root.Path path parent → ∀ node ∈ parent.nested,
    ∀ row : Row, Answers layout.columns [row] → row.NullBelow layout.columns node →
      (∀ n ∈ path, layout.hasPartner n (row.fetch .named) = true) → ∀ record,
        layout.attach (row.fetch .named) record node = .ok (record.ensureSlot node.model.table)
  /-- A root all of whose rows are like that has an empty slot. -/
  empty : ∀ rows forest, Answers layout.columns rows →
    assemble base joins (rows.map (Row.fetch .named)) = .ok forest → ∀ (i : Nat) root group,
      forest[i]? = some root → (layout.rootGroups (rows.map (Row.fetch .named)))[i]? = some group →
      ∀ node ∈ layout.root.nested,
        (∀ row ∈ rows, row.fetch .named ∈ group → row.NullBelow layout.columns node) →
          root.related? node.model.table = some []

namespace Layout

/-- Whether there is a column that is read for the key of each of some nodes. -/
def KeysPicked (layout : Layout) (path : List Node) : Prop :=
  ∀ n ∈ path, (layout.pick layout.columns n n.model.primaryKey).isSome = true

/-- Whether the keys of related tables are read from columns that tell whether a row has a partner,
wherever records can be. -/
structure KeysBelong (layout : Layout) : Prop where
  /-- The key can be read. -/
  legible : ∀ path parent, layout.root.Path path parent → layout.KeysPicked path →
    ∀ node ∈ parent.nested, layout.Legible layout.columns node node.model.primaryKey
  /-- One of the keys on the way is read from a column of the table or of one below it. -/
  within : ∀ path parent, layout.root.Path path parent → ∀ node ∈ parent.nested,
    layout.KeysPicked (path ++ [node]) → ∃ n ∈ path ++ [node], ∃ i column,
      layout.pick layout.columns n n.model.primaryKey = some i ∧
        layout.columns[i]? = some column ∧ column.table ∈ node.preorder.map (·.model.table)

/-- NULL in the columns of a node's table and of the tables below it, and a value in all others. -/
def outsideValues (layout : Layout) (node : Node) (i : Nat) : Scalar :=
  if (layout.columns[i]?).any fun c => (node.preorder.map (·.model.table)).contains c.table then
    .boolean none
  else .boolean (some true)

variable {layout : Layout} {base : Model} {joins : List Join} {node parent : Node}
  {path : List Node}

/-- These values are NULL exactly in the columns of the node and of those below it. -/
theorem isNull_outsideValues {i : Nat} : (layout.outsideValues node i).isNull = true ↔
    ∃ column, layout.columns[i]? = some column ∧
      column.table ∈ node.preorder.map (·.model.table) := by
  unfold outsideValues
  simp only [← List.contains_iff_mem, ← Option.any_eq_true]
  split
  · next h => exact iff_of_true rfl h
  · next h => exact iff_of_false Bool.false_ne_true h

/-- Where a row has partners, there are columns for their keys. -/
theorem keysPicked_of_partners {value : Nat → Scalar}
    (h : ∀ n ∈ path, layout.hasPartner n
      ((Row.ofColumns layout.columns value).fetch .named) = true) : layout.KeysPicked path := by
  intro n hn
  obtain ⟨i, hi, -⟩ := (hasPartner_ofColumns value).1 (h n hn)
  rw [hi]
  rfl

/-- A row with a partner adds its record to a parent without records. -/
theorem not_hasPartner_of_attach {row : RawRow}
    (h : ∀ record, layout.attach row record node = .ok (record.ensureSlot node.model.table)) :
    layout.hasPartner node row = false := by
  -- a record without slots shows whether anything was added
  let bare : Record := ⟨node.model, [], []⟩
  refine Bool.eq_false_iff.2 fun hpartner => ?_
  have hbare := h bare
  cases hvalue : layout.value row node node.model.primaryKey with
  | error e =>
    rw [attach_error hvalue] at hbare
    cases hbare
  | ok found =>
    obtain ⟨key, rfl, hnull⟩ := exists_key_of_hasPartner hvalue hpartner
    have hopen : bare.ensureSlot node.model.table = ⟨node.model, [], [(node.model.table, [])]⟩ :=
      rfl
    have hrelated : (bare.ensureSlot node.model.table).related? node.model.table = some [] := by
      simp [hopen, Record.related?, Assoc.get?]
    rw [attach_new hvalue hnull hrelated rfl] at hbare
    obtain ⟨child, -, hset⟩ := map_eq_ok.1 hbare
    have hslots := congrArg Record.slots hset
    simp [hopen, Record.setSlot, Assoc.set] at hslots

/-- A row that is NULL in a table and below has no partner in it, where the keys belong. -/
theorem not_hasPartner_of_nullBelow (hkeys : layout.KeysBelong)
    (hpath : layout.root.Path path parent) (hnode : node ∈ parent.nested) {value : Nat → Scalar}
    (hnull : (Row.ofColumns layout.columns value).NullBelow layout.columns node)
    (hpartners : ∀ n ∈ path, layout.hasPartner n
      ((Row.ofColumns layout.columns value).fetch .named) = true) :
    layout.hasPartner node ((Row.ofColumns layout.columns value).fetch .named) = false := by
  refine Bool.eq_false_iff.2 fun hpartner => ?_
  have hall : ∀ n ∈ path ++ [node], layout.hasPartner n
      ((Row.ofColumns layout.columns value).fetch .named) = true := by
    intro n hn
    rcases List.mem_append.1 hn with hn | hn
    · exact hpartners n hn
    · rw [List.mem_singleton.1 hn]
      exact hpartner
  obtain ⟨n, hn, i, column, hpick, hcolumn, hbelow⟩ :=
    hkeys.within path parent hpath node hnode (keysPicked_of_partners hall)
  -- the row has a key where it is NULL
  obtain ⟨j, hj, hvalue⟩ := (hasPartner_ofColumns value).1 (hall n hn)
  rw [hpick] at hj
  cases hj
  have hholds : (Row.ofColumns layout.columns value).HoldsIn layout.columns column (value i) := by
    refine ⟨i, hcolumn, ?_⟩
    rw [Row.getElem?_ofColumns, hcolumn]
    rfl
  rw [hnull column _ hbelow hholds] at hvalue
  cases hvalue

/-- A table of a request can be read from a row of the default select list if its key can. -/
theorem readable_ofColumns (h : ofJoins base joins = .ok layout)
    (hfields : ∀ m ∈ layout.tables, m.fields.Nodup) (hnode : node ∈ layout.root.preorder)
    (hkey : layout.Legible layout.columns node node.model.primaryKey) (value : Nat → Scalar) :
    layout.Readable ((Row.ofColumns layout.columns value).fetch .named) node := by
  refine ⟨(value_ok_iff value _).2 hkey, check_eq_ok_iff.2 fun field hfield => ?_⟩
  obtain ⟨i, hi, -⟩ := pick_own hfields ((wellNumbered_ofJoins h).tables_position hnode) hfield
  exact (value_ok_iff value _).2 (legible_of_pick hi)

/-- The base table can be read from any select list. -/
theorem legible_root (h : ofJoins base joins = .ok layout) (columns : List SelectedColumn)
    (name : String) : layout.Legible columns layout.root name := by
  unfold Legible occurrence
  rw [root_ofJoins h, List.take_zero, List.countP_nil]
  omega

/-- Where the keys belong, every row is assembled. -/
theorem assembles_of_keysBelong (h : ofJoins base joins = .ok layout)
    (hfields : ∀ m ∈ layout.tables, m.fields.Nodup) (hkeys : layout.KeysBelong)
    (value : Nat → Scalar) :
    layout.Assembles ((Row.ofColumns layout.columns value).fetch .named) := by
  refine assembles_of_paths (readable_ofColumns h hfields (Node.mem_preorder_self _)
    (legible_root h _ _) value) fun path parent hpath hpartners node hnode => ?_
  exact readable_ofColumns h hfields (hpath.concat hnode).mem_preorder
    (hkeys.legible path parent hpath (keysPicked_of_partners hpartners) node hnode) value

/-- Rows without a partner have no records. -/
theorem children_of_nobody {rows : List RawRow}
    (h : ∀ row ∈ rows, layout.hasPartner node row = false) : layout.children node rows = [] := by
  have hnobody : rows.filter (layout.hasPartner node) = [] :=
    List.filter_eq_nil_iff.2 fun row hrow => Bool.eq_false_iff.1 (h row hrow)
  unfold children partners
  rw [hnobody]
  rfl

/-- **Where the keys belong**, presence is judged by the columns of the table. -/
theorem presenceIsOwn_of_keysBelong (h : ofJoins base joins = .ok layout)
    (hfields : ∀ m ∈ layout.tables, m.fields.Nodup) (hkeys : layout.KeysBelong) :
    PresenceIsOwn base joins layout where
  assembles := by
    intro rows hanswers
    have hprobe : layout.probeForest (rows.map (Row.fetch .named)) = .ok () := by
      refine probeForest_of_assembles fun raw hraw => ?_
      obtain ⟨row, hrow, rfl⟩ := List.mem_map.1 hraw
      obtain ⟨value, rfl⟩ := Row.exists_ofColumns (hanswers row hrow)
      exact assembles_of_keysBelong h hfields hkeys value
    rw [assemble_eq h, hprobe]
    exact ⟨_, rfl⟩
  absent := by
    intro path parent hpath node hnode row hanswers hnull hpartners record
    obtain ⟨value, rfl⟩ := Row.exists_ofColumns (hanswers row List.mem_cons_self)
    obtain ⟨found, hfound⟩ := (value_ok_iff value node.model.primaryKey).2
      (hkeys.legible path parent hpath (keysPicked_of_partners hpartners) node hnode)
    exact attach_absent hfound (not_hasPartner_of_nullBelow hkeys hpath hnode hnull hpartners) _
  empty := by
    intro rows forest hanswers hforest i root group hroot hgroup node hnode hnull
    rw [assemble_eq h] at hforest
    obtain ⟨⟨⟩, -, rfl⟩ := map_eq_ok.1 hforest
    -- no row of the group has a partner in the table
    have hnobody : layout.children node group = [] := by
      refine children_of_nobody fun raw hraw => ?_
      obtain ⟨row, hrow, rfl⟩ := List.mem_map.1
        (subset_of_mem_groupsBy (List.mem_of_getElem? hgroup) hraw)
      obtain ⟨value, rfl⟩ := Row.exists_ofColumns (hanswers row hrow)
      exact not_hasPartner_of_nullBelow hkeys (.here _) hnode (hnull _ hrow hraw)
        fun n hn => absurd hn List.not_mem_nil
    have hget : root = layout.grouped layout.root group := by
      unfold forest at hroot
      unfold rootGroups at hgroup
      rw [List.getElem?_map, hgroup] at hroot
      exact (Option.some.inj hroot).symm
    have hsiblings := (nodup_below (wellNumbered_ofJoins h).nodup hnode).1
    rw [hget, Record.related?, grouped_slots, groupedSlots_eq_map,
      Assoc.get?_map_of_nodup hsiblings (fun n => layout.children n group) hnode, hnobody]

/-- Keys that are declared belong. -/
theorem keysBelong_of_declared (h : ofJoins base joins = .ok layout)
    (hfields : ∀ m ∈ layout.tables, m.fields.Nodup)
    (hdeclared : ∀ m ∈ layout.tables, m.declares m.primaryKey = true) : layout.KeysBelong := by
  -- a declared key is read from the column of its own table
  have hpick : ∀ node ∈ layout.root.preorder, ∃ i,
      layout.pick layout.columns node node.model.primaryKey = some i ∧
        layout.columns[i]? = some ⟨node.model.table, node.model.primaryKey⟩ := by
    intro node hnode
    have hposition := (wellNumbered_ofJoins h).tables_position hnode
    exact pick_own hfields hposition
      (List.contains_iff_mem.1 (hdeclared _ (List.mem_of_getElem? hposition)))
  refine ⟨fun path parent hpath _ node hnode => ?_, fun path parent hpath node hnode _ => ?_⟩
  · obtain ⟨i, hi, -⟩ := hpick node (hpath.concat hnode).mem_preorder
    exact legible_of_pick hi
  · obtain ⟨i, hi, hcolumn⟩ := hpick node (hpath.concat hnode).mem_preorder
    exact ⟨node, List.mem_append_right _ (List.mem_singleton.2 rfl), i, _, hi, hcolumn,
      List.mem_map_of_mem node.mem_preorder_self⟩

/-- **Where presence is judged by the columns of the table**, the keys belong. -/
theorem keysBelong_of_presenceIsOwn (h : ofJoins base joins = .ok layout)
    (hown : PresenceIsOwn base joins layout) : layout.KeysBelong := by
  refine ⟨fun path parent hpath hpicked node hnode => ?_, fun path parent hpath node hnode
    hpicked => ?_⟩
  · -- in a row without NULLs all tables have partners
    let value : Nat → Scalar := fun _ => .boolean (some true)
    obtain ⟨forest, hforest⟩ := hown.assembles _ (answers_ofColumns value)
    have hrelations := ((assemble_singleton_iff h _ _).1 hforest).1.relations
    have hnext := passesAll_iff.1 (passesAll_of_path hpath hrelations fun n hn => ?_) node hnode
    · cases node
      rw [Passes] at hnext
      exact (value_ok_iff value _).1 hnext.1
    · obtain ⟨i, hi⟩ := Option.isSome_iff_exists.1 (hpicked n hn)
      exact (hasPartner_ofColumns value).2 ⟨i, hi, rfl⟩
  · -- a row that is NULL exactly in the table and below adds no record
    by_contra hnone
    have hall : ∀ n ∈ path ++ [node], layout.hasPartner n
        ((Row.ofColumns layout.columns (layout.outsideValues node)).fetch .named) = true := by
      intro n hn
      obtain ⟨i, hi⟩ := Option.isSome_iff_exists.1 (hpicked n hn)
      refine (hasPartner_ofColumns _).2 ⟨i, hi, Bool.eq_false_iff.2 fun hnull => hnone ?_⟩
      obtain ⟨column, hcolumn, hbelow⟩ := isNull_outsideValues.1 hnull
      exact ⟨n, hn, i, column, hi, hcolumn, hbelow⟩
    have hnull : (Row.ofColumns layout.columns (layout.outsideValues node)).NullBelow
        layout.columns node := by
      intro column value hbelow hholds
      obtain ⟨i, hcolumn, rfl⟩ := holdsIn_ofColumns hholds
      exact isNull_outsideValues.2 ⟨column, hcolumn, hbelow⟩
    have hnot := not_hasPartner_of_attach (hown.absent path parent hpath node hnode _
      (answers_ofColumns _) hnull fun n hn => hall n (List.mem_append_left _ hn))
    rw [hall node (List.mem_append_right _ (List.mem_singleton.2 rfl))] at hnot
    cases hnot

end Layout

/-- **Presence of related records.** With the default select list of a joined query, in which no
model lists a field twice, the records of a related table are there by the columns of that table
and of those below it exactly where the keys on the way to it belong to them. -/
theorem presenceIsOwn_iff {base : Model} {joins : List Join} {layout : Layout}
    (h : Layout.ofJoins base joins = .ok layout) (hfields : ∀ m ∈ layout.tables, m.fields.Nodup) :
    PresenceIsOwn base joins layout ↔ layout.KeysBelong :=
  ⟨Layout.keysBelong_of_presenceIsOwn h, Layout.presenceIsOwn_of_keysBelong h hfields⟩

namespace Survey

/-- Questions that leave their key out of their fields. -/
def unkeyed : Model :=
  ⟨1, "questions", "id", ["label", "exercises_id"], [⟨2, "questions_id"⟩], [],
    [⟨0, "exercises_id"⟩]⟩

/-- Exercises with such questions, and those with their responses. -/
def unkeyedLayout : Layout :=
  ⟨[exercises, unkeyed, responses], ⟨exercises, 0, [⟨unkeyed, 1, [⟨responses, 2, []⟩]⟩]⟩⟩

/-- The key of a response is read as the key of the question above it. -/
theorem keysBelong_unkeyed : unkeyedLayout.KeysBelong := by
  -- the only ways are to the questions and on to their responses
  have hway : ∀ path parent, unkeyedLayout.root.Path path parent → ∀ node ∈ parent.nested,
      (path, node) = ([], ⟨unkeyed, 1, [⟨responses, 2, []⟩]⟩) ∨
        (path, node) = ([⟨unkeyed, 1, [⟨responses, 2, []⟩]⟩], ⟨responses, 2, []⟩) := by
    intro path parent hpath node hnode
    cases hpath with
    | here => exact Or.inl (by rw [List.mem_singleton.1 hnode])
    | into hmem hrest =>
      rw [List.mem_singleton.1 hmem] at hrest ⊢
      cases hrest with
      | here => exact Or.inr (by rw [List.mem_singleton.1 hnode])
      | into hmem' hrest' =>
        rw [List.mem_singleton.1 hmem'] at hrest'
        cases hrest' with
        | here => cases hnode
        | into hmem'' _ => cases hmem''
  refine ⟨fun path parent hpath _ node hnode => ?_, fun path parent hpath node hnode _ => ?_⟩
  · rcases hway path parent hpath node hnode with h | h <;> cases h
    · exact Or.inr (by decide)
    · exact Or.inr (by decide)
  · -- the fifth column is the key of the responses
    refine ⟨node, List.mem_append_right _ (List.mem_singleton.2 rfl), 4, ⟨"responses", "id"⟩, ?_⟩
    rcases hway path parent hpath node hnode with h | h <;> cases h <;> decide

end Survey

/-- Questions without a declared key are judged by their responses. -/
theorem presenceIsOwn_iff_unkeyed :
    Layout.ofJoins Survey.exercises [⟨Survey.unkeyed, [⟨Survey.responses, []⟩]⟩] =
        .ok Survey.unkeyedLayout ∧
      PresenceIsOwn Survey.exercises [⟨Survey.unkeyed, [⟨Survey.responses, []⟩]⟩]
        Survey.unkeyedLayout := by
  have hlayout : Layout.ofJoins Survey.exercises [⟨Survey.unkeyed, [⟨Survey.responses, []⟩]⟩] =
      .ok Survey.unkeyedLayout := rfl
  exact ⟨hlayout, (presenceIsOwn_iff hlayout (by decide)).2 Survey.keysBelong_unkeyed⟩

/-- Without their responses, such questions are judged by the key of the exercise: an exercise
without questions gets one. -/
theorem not_presenceIsOwn_unkeyed :
    ¬ PresenceIsOwn Survey.exercises [⟨Survey.unkeyed, []⟩]
      ⟨[Survey.exercises, Survey.unkeyed], ⟨Survey.exercises, 0, [⟨Survey.unkeyed, 1, []⟩]⟩⟩ := by
  intro hown
  let row : Row := ⟨[("id", .int64 (some 1)), ("title", .text (some "T")), ("label", .text none),
    ("exercises_id", .int64 none)]⟩
  let columns : List SelectedColumn := [⟨"exercises", "id"⟩, ⟨"exercises", "title"⟩,
    ⟨"questions", "label"⟩, ⟨"questions", "exercises_id"⟩]
  let stray : Record := ⟨Survey.unkeyed, [("label", .text none), ("exercises_id", .int64 none)], []⟩
  have hassemble : assemble Survey.exercises [⟨Survey.unkeyed, []⟩] [row.fetch .named] =
      .ok [Survey.exercise 1 [stray]] := by
    cbv
  have hanswers : Answers columns [row] := by
    intro r hr
    rw [List.mem_singleton.1 hr]
    rfl
  have hnull : row.NullBelow columns ⟨Survey.unkeyed, 1, []⟩ := by
    intro column value hbelow hholds
    obtain ⟨i, hcolumn, hfield⟩ := hholds
    -- everything the select list has for the questions is NULL
    have hall : ∀ p ∈ columns.zip row.fields, p.1.table ∈ ["questions"] →
        p.2.2.isNull = true := by
      decide
    refine hall (column, column.name, value) (List.mem_iff_getElem?.2 ⟨i, ?_⟩) hbelow
    rw [List.getElem?_zip_eq_some]
    exact ⟨hcolumn, hfield⟩
  -- so the exercise should have no questions, but it has the stray one
  have hempty := hown.empty [row] _ hanswers hassemble 0 _ [row.fetch .named] rfl (by cbv)
    ⟨Survey.unkeyed, 1, []⟩ (List.mem_singleton.2 rfl) fun r hr _ => by
      rw [List.mem_singleton.1 hr]
      exact hnull
  cases hempty

end QueryForest
