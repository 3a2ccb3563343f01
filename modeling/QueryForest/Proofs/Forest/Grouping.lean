import QueryForest.Proofs.Forest.Attach
import QueryForest.Proofs.Forest.Group
import QueryForest.Proofs.Forest.Numbering

namespace QueryForest

/-!
# Forests by grouping

What a list of joined rows says, without going through it step by step: the rows of a record are
those with its key, the fields of a record are those of its first row, and the records of a slot
come from the rows of the parent, grouped by the key of the related table. Rows without a partner
in that table, whose key is NULL or missing, are left out of the groups.

* `Layout.grouped` — the record of a node for a group of rows, with everything below it;
* `Layout.forest` — the roots, one for each group of rows by the key of the base table;
* `Layout.probe` — the reads that entering one more row makes, whatever is entered;
* `Layout.attach_grouped` — entering a row into the record of a group of rows makes these reads
  and gives the record of the longer group.
-/

namespace Layout

variable (layout : Layout)

/-! ### Groups of rows -/

/-- The key by which the records of a node are told apart: the value of the primary key, where it
is a declared field. -/
def key? (node : Node) (row : RawRow) : Option Scalar :=
  if node.model.declares node.model.primaryKey then
    layout.reading node node.model.primaryKey row
  else none

/-- The rows with partners in the table of a node, one group for each record. -/
def partners (node : Node) (rows : List RawRow) : List (List RawRow) :=
  groupsBy (layout.key? node) (rows.filter (layout.hasPartner node))

mutual

/-- The record of a node for its rows: the fields of the first row, and slots for the relations. -/
def grouped : Node → List RawRow → Record
  | ⟨model, position, nested⟩, rows =>
    ⟨model, (rows.head?.map (layout.fieldsOf ⟨model, position, nested⟩)).getD [],
      groupedSlots nested rows⟩

/-- The slots for relations of a record with the given rows. -/
def groupedSlots : List Node → List RawRow → List (String × List Record)
  | [], _ => []
  | node :: rest, rows =>
    (node.model.table, (layout.partners node rows).map (grouped node)) :: groupedSlots rest rows

end

/-- The records of a relation of a record with the given rows. -/
def children (node : Node) (rows : List RawRow) : List Record :=
  (layout.partners node rows).map (layout.grouped node)

/-- The roots for a list of rows. -/
def forest (rows : List RawRow) : List Record :=
  (groupsBy (layout.key? layout.root) rows).map (layout.grouped layout.root)

/-! ### Reads -/

/-- The rows among `earlier` with a partner that is the partner of `row`. -/
def sharing (node : Node) (row : RawRow) (earlier : List RawRow) : List RawRow :=
  (earlier.filter (layout.hasPartner node)).filter (sameKey (layout.key? node) row)

mutual

/-- The reads that a row needs for a node behind the `earlier` rows of the same parent: the key
and, where there is a partner, its fields unless an earlier row had it, and so on below. -/
def probe (row : RawRow) (earlier : List RawRow) : Node → Except ResolutionError Unit
  | ⟨model, position, nested⟩ => do
    let node : Node := ⟨model, position, nested⟩
    match ← layout.value row node model.primaryKey with
    | none => .ok ()
    | some key =>
      if key.isNull then .ok ()
      else do
        if (layout.sharing node row earlier).isEmpty then layout.check node row
        probeAll row (layout.sharing node row earlier) nested

/-- The reads that a row needs for several nodes, in order. -/
def probeAll (row : RawRow) (earlier : List RawRow) : List Node → Except ResolutionError Unit
  | [] => .ok ()
  | node :: rest => do
    probe row earlier node
    probeAll row earlier rest

end

variable {layout}

/-! ### Records of groups -/

/-- The record of a node is of its model. -/
@[simp] theorem grouped_model (node : Node) (rows : List RawRow) :
    (layout.grouped node rows).model = node.model := by
  cases node
  rw [grouped]

/-- The record of a node has the slots of its relations. -/
@[simp] theorem grouped_slots (node : Node) (rows : List RawRow) :
    (layout.grouped node rows).slots = layout.groupedSlots node.nested rows := by
  cases node
  rw [grouped]

/-- The record of a node has the fields of its first row. -/
theorem grouped_values {rows : List RawRow} {first : RawRow} (h : rows.head? = some first)
    (node : Node) : (layout.grouped node rows).values = layout.fieldsOf node first := by
  cases node
  rw [grouped, h]
  rfl

/-- There is one slot for each relation, in order. -/
theorem groupedSlots_eq_map (nodes : List Node) (rows : List RawRow) :
    layout.groupedSlots nodes rows =
      nodes.map fun node => (node.model.table, layout.children node rows) := by
  induction nodes with
  | nil => rw [groupedSlots]; rfl
  | cons node rest ih => rw [groupedSlots, ih]; rfl

/-- Without rows all slots are empty. -/
theorem groupedSlots_nil (nodes : List Node) :
    layout.groupedSlots nodes [] = nodes.map fun node => (node.model.table, []) :=
  groupedSlots_eq_map nodes []

/-- The slots for several relations are those for the first and for the rest. -/
theorem groupedSlots_cons (node : Node) (rest : List Node) (rows : List RawRow) :
    layout.groupedSlots (node :: rest) rows =
      (node.model.table, layout.children node rows) :: layout.groupedSlots rest rows := by
  rw [groupedSlots]
  rfl

/-- A record that was read from a row has the slots of no rows. -/
theorem record_grouped (node : Node) (row : RawRow) (h : (node.nested.map (·.model.table)).Nodup) :
    layout.record row node = (layout.check node row).map fun _ =>
      ⟨node.model, layout.fieldsOf node row, layout.groupedSlots node.nested []⟩ := by
  rw [record_eq layout node row h, groupedSlots_nil]

/-- The record of a single row: its slots are those of the row alone. -/
theorem grouped_eq (node : Node) {rows : List RawRow} {first : RawRow}
    (h : rows.head? = some first) :
    layout.grouped node rows =
      ⟨node.model, layout.fieldsOf node first, layout.groupedSlots node.nested rows⟩ := by
  cases node
  rw [grouped, h]
  rfl

/-- The key of the record of a node is that of its first row. -/
theorem primaryKey?_grouped (layout : Layout) {rows : List RawRow} {first : RawRow}
    (h : rows.head? = some first) (node : Node) :
    (layout.grouped node rows).primaryKey? = layout.key? node first := by
  unfold Record.primaryKey? Record.get? key?
  rw [grouped_model, grouped_values h, fieldsOf, Assoc.get?_foundEntries]
  simp only [Model.declares, List.contains_iff_mem]

/-- Among the records of groups, a search for the key of a row finds the group about it. -/
theorem findIdx?_hasKey {node : Node} {row : RawRow} {key : Scalar}
    (hkey : layout.reading node node.model.primaryKey row = some key) {groups : List (List RawRow)}
    (hgroups : ∀ group ∈ groups, group ≠ []) :
    (groups.map (layout.grouped node)).findIdx? (Record.hasKey key) =
      groups.findIdx? (isAbout (layout.key? node) row) := by
  rw [List.findIdx?_map]
  refine findIdx?_congr fun group hgroup => ?_
  obtain ⟨first, rest, rfl⟩ := List.exists_cons_of_ne_nil (hgroups group hgroup)
  have hpk := primaryKey?_grouped layout (List.head?_cons (a := first) (l := rest)) node
  simp only [Function.comp_apply, Record.hasKey, hpk, isAbout, List.head?_cons, Option.any_some,
    sameKey]
  unfold key?
  rw [hkey]
  cases node.model.declares node.model.primaryKey with
  | false => rfl
  | true =>
    simp only [if_true]
    cases layout.reading node node.model.primaryKey first with
    | none => rfl
    | some own => exact Scalar.same_comm own key

/-! ### One more row for a relation -/

/-- A row without a partner adds nothing. -/
theorem children_concat_of_not_partner {node : Node} {row : RawRow}
    (h : layout.hasPartner node row = false) (rows : List RawRow) :
    layout.children node (rows ++ [row]) = layout.children node rows := by
  unfold children partners
  rw [List.filter_append, List.filter_singleton, h]
  simp

/-- **A row with a partner.** Either a record has its key, and is the record of the rows that share
the partner; or the row starts a record of its own behind the others. -/
theorem children_concat_of_partner {node : Node} {row : RawRow} {key : Scalar}
    (hkey : layout.reading node node.model.primaryKey row = some key) (hnull : key.isNull = false)
    (rows : List RawRow) :
    (∃ i, (layout.children node rows).findIdx? (Record.hasKey key) = some i ∧
      (layout.children node rows)[i]? = some (layout.grouped node (layout.sharing node row rows)) ∧
      layout.sharing node row rows ≠ [] ∧
      layout.children node (rows ++ [row]) = (layout.children node rows).set i
        (layout.grouped node (layout.sharing node row rows ++ [row]))) ∨
    ((layout.children node rows).findIdx? (Record.hasKey key) = none ∧
      layout.sharing node row rows = [] ∧
      layout.children node (rows ++ [row]) =
        layout.children node rows ++ [layout.grouped node [row]]) := by
  have hpartner : layout.hasPartner node row = true := by
    unfold hasPartner
    rw [hkey, Option.any_some, hnull, Bool.not_false]
  have hfilter : (rows ++ [row]).filter (layout.hasPartner node) =
      rows.filter (layout.hasPartner node) ++ [row] := by
    rw [List.filter_append, List.filter_singleton, hpartner]
    rfl
  -- records have the keys of their groups, so that both searches give the same place
  have hfind : (layout.children node rows).findIdx? (Record.hasKey key) =
      (layout.partners node rows).findIdx? (isAbout (layout.key? node) row) :=
    findIdx?_hasKey hkey fun group hgroup => ne_nil_of_mem_groupsBy hgroup
  have hconcat : layout.children node (rows ++ [row]) =
      (groupsBy (layout.key? node) (rows.filter (layout.hasPartner node) ++ [row])).map
        (layout.grouped node) := by
    unfold children partners
    rw [hfilter]
  rcases groupsBy_concat (layout.key? node) (rows.filter (layout.hasPartner node)) row with
    ⟨i, hi, hget, hne, heq⟩ | ⟨hi, hnil, heq⟩
  · left
    refine ⟨i, hfind.trans hi, ?_, hne, ?_⟩
    · unfold children partners
      rw [List.getElem?_map, hget]
      rfl
    · rw [hconcat, heq, List.map_set]
      rfl
  · right
    refine ⟨hfind.trans hi, hnil, ?_⟩
    rw [hconcat, heq, List.map_append]
    rfl

/-! ### Entering one more row -/

/-- A key that cannot be read is reported. -/
theorem probe_error {node : Node} {row : RawRow} {e : ResolutionError}
    (h : layout.value row node node.model.primaryKey = .error e) (earlier : List RawRow) :
    layout.probe row earlier node = .error e := by
  cases node
  rw [probe, h]
  rfl

/-- A row without a partner needs no further reads. -/
theorem probe_absent {node : Node} {row : RawRow} {found : Option Scalar}
    (h : layout.value row node node.model.primaryKey = .ok found)
    (hnot : layout.hasPartner node row = false) (earlier : List RawRow) :
    layout.probe row earlier node = .ok () := by
  rw [hasPartner_of_value h] at hnot
  cases node
  rw [probe, h]
  cases found with
  | none => rfl
  | some key =>
    have hnull : key.isNull = true := by simpa using hnot
    simp only [bind, Except.bind, hnull, if_true]

/-- The reads for a row with a partner: the fields where no earlier row shared the partner, and
those of the relations below. -/
theorem probe_partner {node : Node} {row : RawRow} {key : Scalar}
    (h : layout.value row node node.model.primaryKey = .ok (some key)) (hnull : key.isNull = false)
    (earlier : List RawRow) :
    layout.probe row earlier node =
      (if (layout.sharing node row earlier).isEmpty then layout.check node row else .ok ()).bind
        fun _ => layout.probeAll row (layout.sharing node row earlier) node.nested := by
  cases node
  rw [probe, h]
  simp only [bind, Except.bind, hnull, Bool.false_eq_true, if_false]
  split <;> rfl

mutual

/-- **Entering a row for one relation.** In a parent that has the records of earlier rows in the
slot of a relation, entering one more row makes the reads of `probe` and leaves the records of all
the rows in the slot. -/
theorem attach_grouped (row : RawRow) (node : Node)
    (hnode : (node.preorder.map (·.model.table)).Nodup)
    (model : Model) (values : List (String × Scalar)) (earlier : List RawRow)
    {before : List (String × List Record)} (hbefore : node.model.table ∉ before.map Prod.fst)
    (after : List (String × List Record)) :
    layout.attach row
        ⟨model, values, before ++ (node.model.table, layout.children node earlier) :: after⟩ node =
      (layout.probe row earlier node).map fun _ =>
        ⟨model, values,
          before ++ (node.model.table, layout.children node (earlier ++ [row])) :: after⟩ := by
  match node with
  | ⟨target, position, nested⟩ =>
    have hnested : ((Node.preorderAll nested).map (·.model.table)).Nodup := by
      rw [Node.preorder, List.map_cons, List.nodup_cons] at hnode
      exact hnode.2
    -- the relations below, in a record of this node
    have hbelow : ∀ (values : List (String × Scalar)) (earlier : List RawRow),
        layout.attachAll row ⟨target, values, layout.groupedSlots nested earlier⟩ nested =
          (layout.probeAll row earlier nested).map fun _ =>
            ⟨target, values, layout.groupedSlots nested (earlier ++ [row])⟩ :=
      fun values earlier => attachAll_grouped row nested hnested target values earlier [] (by simp)
    cases hvalue : layout.value row ⟨target, position, nested⟩ target.primaryKey with
    | error e => rw [attach_error hvalue, probe_error hvalue]; rfl
    | ok found =>
      by_cases hpartner : layout.hasPartner ⟨target, position, nested⟩ row = true
      · obtain ⟨key, rfl, hnull⟩ := exists_key_of_hasPartner hvalue hpartner
        have hrelated : ((⟨model, values, before ++ (target.table,
            layout.children ⟨target, position, nested⟩ earlier) :: after⟩ : Record).ensureSlot
              target.table).related? target.table =
            some (layout.children ⟨target, position, nested⟩ earlier) := by
          rw [Record.ensureSlot_middle]
          exact Record.related?_middle hbefore _ after
        rw [probe_partner hvalue hnull]
        rcases children_concat_of_partner (reading_of_value hvalue) hnull earlier with
          ⟨i, hfind, hget, hne, hconcat⟩ | ⟨hfind, hnil, hconcat⟩
        · -- the row belongs to a record that is there
          obtain ⟨first, rest, hcons⟩ := List.exists_cons_of_ne_nil hne
          rw [attach_found hvalue hnull hrelated hfind hget, hconcat, hcons, List.cons_append,
            grouped_eq _ (List.head?_cons (l := rest)),
            grouped_eq _ (List.head?_cons (l := rest ++ [row])), Record.ensureSlot_middle]
          simp only [hbelow, List.isEmpty_cons, Bool.false_eq_true, if_false,
            Record.setSlot_middle hbefore]
          cases layout.probeAll row (first :: rest) nested <;> rfl
        · -- the row starts a record
          have hsiblings : (nested.map (·.model.table)).Nodup :=
            hnested.sublist ((Node.sublist_preorderAll nested).map _)
          rw [attach_new hvalue hnull hrelated hfind, hnil, hconcat,
            grouped_eq _ (List.head?_cons (l := [])), Record.ensureSlot_middle,
            record_grouped ⟨target, position, nested⟩ row hsiblings]
          simp only [List.isEmpty_nil, if_true, Record.setSlot_middle hbefore]
          cases layout.check ⟨target, position, nested⟩ row with
          | error e => rfl
          | ok _ =>
            simp only [Except.map, Except.bind, hbelow]
            cases layout.probeAll row [] nested <;> rfl
      · -- without a partner the row opens the slot and no more
        rw [Bool.not_eq_true] at hpartner
        rw [attach_absent hvalue hpartner, probe_absent hvalue hpartner,
          children_concat_of_not_partner hpartner, Record.ensureSlot_middle]
        rfl

/-- **Entering a row for several relations**, in a parent that has the records of earlier rows in
their slots. -/
theorem attachAll_grouped (row : RawRow) (nodes : List Node)
    (hnodes : ((Node.preorderAll nodes).map (·.model.table)).Nodup)
    (model : Model) (values : List (String × Scalar)) (earlier : List RawRow)
    (before : List (String × List Record))
    (hbefore : ∀ node ∈ nodes, node.model.table ∉ before.map Prod.fst) :
    layout.attachAll row ⟨model, values, before ++ layout.groupedSlots nodes earlier⟩ nodes =
      (layout.probeAll row earlier nodes).map fun _ =>
        ⟨model, values, before ++ layout.groupedSlots nodes (earlier ++ [row])⟩ := by
  match nodes with
  | [] =>
    rw [attachAll, probeAll]
    rfl
  | node :: rest =>
    rw [Node.preorderAll, List.map_append, List.nodup_append] at hnodes
    obtain ⟨hnode, hrest, hdisjoint⟩ := hnodes
    -- the slot that was filled has another name than those to come
    have hbefore' : ∀ other ∈ rest, other.model.table ∉
        (before ++ [(node.model.table, layout.children node (earlier ++ [row]))]).map Prod.fst := by
      intro other hother hmem
      rw [List.map_append, List.mem_append] at hmem
      rcases hmem with hmem | hmem
      · exact hbefore other (List.mem_cons_of_mem _ hother) hmem
      · refine hdisjoint _ (List.mem_map_of_mem node.mem_preorder_self) _
          (List.mem_map_of_mem ((Node.sublist_preorderAll rest).subset hother)) ?_
        exact (List.mem_singleton.1 hmem).symm
    have hothers := attachAll_grouped row rest hrest model values earlier
      (before ++ [(node.model.table, layout.children node (earlier ++ [row]))]) hbefore'
    simp only [List.append_assoc, List.singleton_append] at hothers
    rw [attachAll, probeAll, groupedSlots_cons, groupedSlots_cons,
      attach_grouped row node hnode model values earlier (hbefore node List.mem_cons_self)]
    cases layout.probe row earlier node with
    | error e => rfl
    | ok _ => exact hothers

end

end Layout

end QueryForest
