import QueryForest.Proofs.Forest.Grouping
import QueryForest.Proofs.Row

namespace QueryForest

/-!
# Flattening a forest

What a database returns for a forest of records is the forest flattened by outer joins: one row for
each choice of a record per table, with the columns of every table, and with NULLs for the tables
in which there is no record to choose.

* `Record.Shaped` — the records that a request can give: all declared fields, a slot for each
  relation, and under each parent keys that are different and not NULL;
* `Record.joined` — the joined rows of a record, as the record of each table in each row;
* `Emits` — the fields that a database can return for a joined row: those of its records, and any
  NULLs where there is none;
* `Layout.value_of_emits` — every declared field of every table can be read from such a row, and is
  the value in the block of that table.
-/

/-- A row of joined tables: for each table the values of its record, if the row has one. -/
abbrev JoinedRow := List (Option (List (String × Scalar)))

/-- Records that are told apart by their keys, none of them NULL. -/
structure HasKeys (records : List Record) : Prop where
  key : ∀ r ∈ records, ∃ k, r.primaryKey? = some k ∧ k.isNull = false
  distinct : DistinctKeys (records.filterMap Record.primaryKey?)

/-- Records with different keys, none of them NULL, are told apart by them. -/
theorem HasKeys.of_keys {records : List Record} (keys : List Scalar)
    (h : records.map Record.primaryKey? = keys.map some) (hnull : ∀ k ∈ keys, k.isNull = false)
    (hdistinct : DistinctKeys keys) : HasKeys records := by
  refine ⟨fun r hr => ?_, ?_⟩
  · have hmem : r.primaryKey? ∈ keys.map some := h ▸ List.mem_map_of_mem hr
    obtain ⟨k, hk, heq⟩ := List.mem_map.1 hmem
    exact ⟨k, heq.symm, hnull k hk⟩
  · have hkeys : records.filterMap Record.primaryKey? = keys := by
      have hid := List.filterMap_map (f := Record.primaryKey?) (g := fun k => k) (l := records)
      rw [h, List.filterMap_map] at hid
      exact hid.symm.trans (by simp)
    rw [hkeys]
    exact hdistinct

namespace Record

mutual

/-- The records that the request of a node can give. -/
def Shaped : Node → Record → Prop
  | ⟨model, _, nested⟩, r =>
    r.model = model ∧ r.values.map Prod.fst = model.fields ∧
      r.slots.map Prod.fst = nested.map (·.model.table) ∧ ShapedBelow nested r

/-- The records whose slots for several relations hold what their requests can give. -/
def ShapedBelow : List Node → Record → Prop
  | [], _ => True
  | node :: rest, r =>
    (∀ child ∈ r.under node, Shaped node child) ∧ HasKeys (r.under node) ∧ ShapedBelow rest r

end

mutual

/-- The joined rows of a record. -/
def joined : Node → Record → List JoinedRow
  | ⟨_, _, nested⟩, r => (joinedBelow nested r).map (some r.values :: ·)

/-- The joined rows of several relations of a record: all rows of the first with all rows of the
second, and so on. A relation without records has one row, in which no table has one. -/
def joinedBelow : List Node → Record → List JoinedRow
  | [], _ => [[]]
  | node :: rest, r =>
    let fronts :=
      if (r.under node).isEmpty then [List.replicate node.preorder.length none]
      else (r.under node).flatMap (joined node)
    fronts.flatMap fun front => (joinedBelow rest r).map (front ++ ·)

end

end Record

/-- The fields that a database can return for a joined row, one for each declared field of each
table in order: the values of the record, or NULLs of any kind. -/
inductive Emits : List Model → JoinedRow → List (String × Scalar) → Prop
  | nil : Emits [] [] []
  | partner {model : Model} {values : List (String × Scalar)} {tables : List Model}
      {row : JoinedRow} {fields : List (String × Scalar)}
      (names : values.map Prod.fst = model.fields) (rest : Emits tables row fields) :
      Emits (model :: tables) (some values :: row) (values ++ fields)
  | noPartner {model : Model} {nulls : List (String × Scalar)} {tables : List Model}
      {row : JoinedRow} {fields : List (String × Scalar)}
      (names : nulls.map Prod.fst = model.fields) (null : ∀ e ∈ nulls, e.2.isNull = true)
      (rest : Emits tables row fields) :
      Emits (model :: tables) (none :: row) (nulls ++ fields)

/-! ### The columns of a table among all columns -/

namespace Emits

variable {tables : List Model} {row : JoinedRow} {fields : List (String × Scalar)}

/-- The names of a returned row are the declared fields of the tables in order. -/
theorem names_eq (h : Emits tables row fields) :
    fields.map Prod.fst = tables.flatMap (·.fields) := by
  induction h with
  | nil => rfl
  | partner names _ ih => rw [List.map_append, names, ih, List.flatMap_cons]
  | noPartner names _ _ ih => rw [List.map_append, names, ih, List.flatMap_cons]

/-- The fields of a table stand behind those of the tables before it, and are those of its record
in the row or NULLs. -/
theorem exists_block (h : Emits tables row fields) {p : Nat} {model : Model}
    (hp : tables[p]? = some model) :
    ∃ front block back, fields = front ++ (block ++ back) ∧
      front.map Prod.fst = (tables.take p).flatMap (·.fields) ∧
      block.map Prod.fst = model.fields ∧
      (row[p]? = some (some block) ∨ row[p]? = some none ∧ ∀ e ∈ block, e.2.isNull = true) := by
  -- the place counts the tables in front of the one that is asked for
  induction h generalizing p with
  | nil => cases hp
  | @partner m values tables row fields names _ ih =>
    cases p with
    | zero =>
      cases hp
      exact ⟨[], values, fields, rfl, rfl, names, Or.inl rfl⟩
    | succ p =>
      obtain ⟨front, block, back, hfields, hfront, hblock, hrow⟩ := ih hp
      refine ⟨values ++ front, block, back, ?_, ?_, hblock, hrow⟩
      · rw [hfields, List.append_assoc]
      · rw [List.map_append, names, hfront, List.take_succ_cons, List.flatMap_cons]
  | @noPartner m nulls tables row fields names null _ ih =>
    cases p with
    | zero =>
      cases hp
      exact ⟨[], nulls, fields, rfl, rfl, names, Or.inr ⟨rfl, null⟩⟩
    | succ p =>
      obtain ⟨front, block, back, hfields, hfront, hblock, hrow⟩ := ih hp
      refine ⟨nulls ++ front, block, back, ?_, ?_, hblock, hrow⟩
      · rw [hfields, List.append_assoc]
      · rw [List.map_append, names, hfront, List.take_succ_cons, List.flatMap_cons]

end Emits

/-! ### Reading a fetched row -/

/-- A name stands once for each table that declares it. -/
theorem count_flatMap_fields {tables : List Model} (h : ∀ m ∈ tables, m.fields.Nodup)
    (name : String) :
    (tables.flatMap (·.fields)).count name = tables.countP (·.declares name) := by
  induction tables with
  | nil => rfl
  | cons model rest ih =>
    have hmodel := h model List.mem_cons_self
    rw [List.flatMap_cons, List.count_append, ih fun m hm => h m (List.mem_cons_of_mem _ hm),
      List.countP_cons, List.Nodup.count hmodel, Nat.add_comm]
    simp only [Model.declares, List.contains_iff_mem]

namespace Layout

variable {layout : Layout} {node : Node}

/-- Where a row has the occurrence of a column that belongs to a table, that is what is read. -/
theorem value_of_occurrence {column : String} {fields : List (String × Scalar)} {v : Scalar}
    (h : (Assoc.valuesOf column fields)[layout.occurrence node.position column]? = some v) :
    layout.value (Row.fetch .named ⟨fields⟩) node column = .ok (some v) := by
  unfold value
  rw [Row.get?_fetch_named]
  match hvalues : Assoc.valuesOf column fields with
  | [] => rw [hvalues] at h; cases h
  | [w] =>
    rw [hvalues] at h
    obtain ⟨hlt, hw⟩ := List.getElem?_eq_some_iff.1 h
    -- a single value is read whatever the occurrence is; there is one only at 0
    have hzero : layout.occurrence node.position column = 0 := by
      simp only [List.length_singleton] at hlt
      omega
    simp only [hzero, List.getElem_singleton] at hw
    rw [hw]
    rfl
  | w :: w' :: rest =>
    rw [hvalues] at h
    simp only [Column.ofOccurrences, h]

/-- **Reading an emitted row.** Every declared field of the table of a node is read from the block
of that table. -/
theorem value_of_emits {row : JoinedRow} {fields : List (String × Scalar)}
    (h : Emits layout.tables row fields) (hnodup : ∀ m ∈ layout.tables, m.fields.Nodup)
    (hnode : layout.tables[node.position]? = some node.model) :
    ∃ block : List (String × Scalar), block.map Prod.fst = node.model.fields ∧
      (row[node.position]? = some (some block) ∨
        row[node.position]? = some none ∧ ∀ e ∈ block, e.2.isNull = true) ∧
      ∀ field ∈ node.model.fields, ∃ v, Assoc.get? field block = some v ∧
        layout.value (Row.fetch .named ⟨fields⟩) node field = .ok (some v) := by
  obtain ⟨front, block, back, hfields, hfront, hblock, hrow⟩ := h.exists_block hnode
  refine ⟨block, hblock, hrow, fun field hfield => ?_⟩
  cases hget : Assoc.get? field block with
  | none => exact absurd (hblock ▸ hfield) (Assoc.get?_eq_none_iff.1 hget)
  | some v =>
    refine ⟨v, rfl, value_of_occurrence ?_⟩
    have hblock' : (block.map Prod.fst).Nodup :=
      hblock ▸ hnodup node.model (List.mem_of_getElem? hnode)
    -- the tables in front have as many columns of that name as the occurrence rule counts
    have hplace : (Assoc.valuesOf field front).length =
        layout.occurrence node.position field := by
      rw [Assoc.length_valuesOf, hfront, count_flatMap_fields fun m hm =>
        hnodup m (List.mem_of_mem_take hm)]
      rfl
    rw [hfields, Assoc.valuesOf_append, Assoc.valuesOf_append,
      Assoc.valuesOf_of_nodup hblock', hget, ← hplace]
    simp

end Layout

end QueryForest
