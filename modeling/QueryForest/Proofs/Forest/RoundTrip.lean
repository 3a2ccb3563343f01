import QueryForest.Proofs.Forest.Flattening
import QueryForest.Proofs.Forest.Passing

namespace QueryForest

/-!
# Assembly undoes flattening

The joined rows of a forest repeat each record once for every combination of the records of other
relations. Grouping takes the repetitions away again: the rows of a record are those with its key,
and each of its relations sees in them the joined rows of its slot, some of them repeated, with the
same first arrivals.

* `Layout.Placed` — nodes at the positions of their tables from some position on;
* `Emitted` — a joined row with fields that a database can return for it;
* `Layout.grouped_joined` — the group of the rows of a record is that record;
* `Layout.forest_joined` — the same for the roots.
-/

/-- The part of a joined row for some tables. -/
def window (start length : Nat) (row : JoinedRow) : JoinedRow := (row.drop start).take length

/-- The values of the first table of a part of a joined row. -/
def JoinedRow.key? (model : Model) (row : JoinedRow) : Option Scalar :=
  match row.head? with
  | some (some values) => Assoc.get? model.primaryKey values
  | _ => none

/-! ### Joined rows -/

namespace Record

/-- The joined rows of a slot. -/
def alternatives (node : Node) (records : List Record) : List JoinedRow :=
  if records.isEmpty then [List.replicate node.preorder.length none]
  else records.flatMap (joined node)

/-- The joined rows of a record start with its own values. -/
theorem joined_eq (node : Node) (r : Record) :
    joined node r = (joinedBelow node.nested r).map (some r.values :: ·) := by
  cases node
  rw [joined]

/-- All rows of the first relation go with all rows of the others. -/
theorem joinedBelow_cons (node : Node) (rest : List Node) (r : Record) :
    joinedBelow (node :: rest) r =
      (alternatives node (r.under node)).flatMap fun front =>
        (joinedBelow rest r).map (front ++ ·) := by
  rw [joinedBelow]
  rfl

/-- Every joined row of a record starts with its values. -/
theorem head?_of_mem_joined {node : Node} {r : Record} {row : JoinedRow} (h : row ∈ joined node r) :
    row.head? = some (some r.values) := by
  rw [joined_eq] at h
  obtain ⟨below, -, rfl⟩ := List.mem_map.1 h
  rfl

/-- Rows of the length of the tables of some nodes, and at least one. -/
def Regular (length : Nat) (rows : List JoinedRow) : Prop :=
  rows ≠ [] ∧ ∀ row ∈ rows, row.length = length

/-- The joined rows of a slot have a part for each table. -/
theorem alternatives_regular {node : Node} (records : List Record)
    (h : ∀ child ∈ records, Regular node.preorder.length (joined node child)) :
    Regular node.preorder.length (alternatives node records) := by
  unfold alternatives
  cases records with
  | nil =>
    refine ⟨List.cons_ne_nil _ _, fun front hfront => ?_⟩
    rw [List.mem_singleton.1 hfront, List.length_replicate]
  | cons child others =>
    refine ⟨fun hnil => ?_, fun front hfront => ?_⟩
    · exact (h child List.mem_cons_self).1 (List.flatMap_eq_nil_iff.1 hnil child List.mem_cons_self)
    · obtain ⟨child, hchild, hfront⟩ := List.mem_flatMap.1 hfront
      exact (h child hchild).2 front hfront

mutual

/-- A joined row has one place for each table, and every record has a joined row. -/
theorem joined_regular (node : Node) (r : Record) :
    Regular node.preorder.length (joined node r) := by
  match node with
  | ⟨model, position, nested⟩ =>
    obtain ⟨hne, hlength⟩ := joinedBelow_regular nested r
    rw [joined, Node.preorder]
    refine ⟨mt List.map_eq_nil_iff.1 hne, fun row hrow => ?_⟩
    obtain ⟨below, hbelow, rfl⟩ := List.mem_map.1 hrow
    rw [List.length_cons, List.length_cons, hlength below hbelow]

/-- The joined rows below a record have a part for each table below. -/
theorem joinedBelow_regular (nodes : List Node) (r : Record) :
    Regular (Node.preorderAll nodes).length (joinedBelow nodes r) := by
  match nodes with
  | [] =>
    rw [joinedBelow, Node.preorderAll]
    exact ⟨List.cons_ne_nil _ _, fun row hrow => List.mem_singleton.1 hrow ▸ rfl⟩
  | node :: rest =>
    obtain ⟨hne, hlength⟩ := joinedBelow_regular rest r
    obtain ⟨hfronts, hfrontLength⟩ := alternatives_regular (r.under node)
      fun child _ => joined_regular node child
    rw [joinedBelow_cons, Node.preorderAll]
    refine ⟨fun hnil => ?_, fun row hrow => ?_⟩
    · obtain ⟨front, hfront⟩ := List.exists_mem_of_ne_nil _ hfronts
      exact hne (List.map_eq_nil_iff.1 (List.flatMap_eq_nil_iff.1 hnil front hfront))
    · obtain ⟨front, hfront, hrow⟩ := List.mem_flatMap.1 hrow
      obtain ⟨back, hback, rfl⟩ := List.mem_map.1 hrow
      rw [List.length_append, List.length_append, hfrontLength front hfront, hlength back hback]

end

end Record

/-! ### Emitted rows -/

/-- A joined row with fields that a database can return for it. -/
structure Emitted (layout : Layout) where
  row : JoinedRow
  fields : List (String × Scalar)
  emits : Emits layout.tables row fields

/-- The row as it is fetched. -/
def Emitted.raw {layout : Layout} (e : Emitted layout) : RawRow := Row.fetch .named ⟨e.fields⟩

/-- Joined rows with what was returned for them, pair by pair. -/
theorem exists_emitted {layout : Layout} {rows : List JoinedRow}
    {returned : List (List (String × Scalar))}
    (h : List.Forall₂ (Emits layout.tables) rows returned) :
    ∃ es : List (Emitted layout), es.map Emitted.row = rows ∧ es.map Emitted.fields = returned := by
  induction h with
  | nil => exact ⟨[], rfl, rfl⟩
  | cons hfirst _ ih =>
    obtain ⟨es, hrows, hfields⟩ := ih
    exact ⟨⟨_, _, hfirst⟩ :: es, by rw [List.map_cons, hrows], by rw [List.map_cons, hfields]⟩

namespace Layout

variable {layout : Layout} {node : Node}

/-- What a layout needs so that its columns can be told apart: every table declares its primary
key, and lists no field twice. -/
structure Declared (layout : Layout) : Prop where
  key : ∀ m ∈ layout.tables, m.declares m.primaryKey = true
  nodup : ∀ m ∈ layout.tables, m.fields.Nodup

/-- **A table with a record in a row.** The fields read for it are those of the record. -/
theorem fieldsOf_emitted (hdeclared : layout.Declared) (e : Emitted layout)
    (hnode : layout.tables[node.position]? = some node.model) {values : List (String × Scalar)}
    (hrow : e.row[node.position]? = some (some values)) :
    layout.fieldsOf node e.raw = values ∧
      layout.key? node e.raw = Assoc.get? node.model.primaryKey values ∧
      layout.reading node node.model.primaryKey e.raw =
        Assoc.get? node.model.primaryKey values := by
  obtain ⟨block, hblock, hcases, hread⟩ := value_of_emits e.emits hdeclared.nodup hnode
  rcases hcases with hsome | ⟨hnone, -⟩
  · rw [hrow, Option.some.injEq, Option.some.injEq] at hsome
    subst hsome
    -- every declared field is found in the occurrence of the table
    have hreading : ∀ field ∈ node.model.fields,
        layout.reading node field e.raw = Assoc.get? field values := by
      intro field hfield
      obtain ⟨v, hget, hvalue⟩ := hread field hfield
      rw [hget]
      exact reading_of_value hvalue
    have hkey := hdeclared.key node.model (List.mem_of_getElem? hnode)
    have hpk := hreading _ (List.contains_iff_mem.1 hkey)
    refine ⟨?_, ?_, hpk⟩
    · unfold fieldsOf
      rw [← hblock]
      refine foundEntries_get? ?_ fun field hfield => hreading field (hblock ▸ hfield)
      exact hblock ▸ hdeclared.nodup node.model (List.mem_of_getElem? hnode)
    · unfold key?
      rw [if_pos hkey, hpk]
  · rw [hrow] at hnone
    cases hnone

/-- A table without a record in a row has no partner there. -/
theorem hasPartner_emitted (hdeclared : layout.Declared) (e : Emitted layout)
    (hnode : layout.tables[node.position]? = some node.model)
    (hrow : e.row[node.position]? = some none) : layout.hasPartner node e.raw = false := by
  obtain ⟨block, hblock, hcases, hread⟩ := value_of_emits e.emits hdeclared.nodup hnode
  rcases hcases with hsome | ⟨-, hnull⟩
  · rw [hrow] at hsome
    cases hsome
  · have hkey := hdeclared.key node.model (List.mem_of_getElem? hnode)
    obtain ⟨v, hget, hvalue⟩ := hread _ (List.contains_iff_mem.1 hkey)
    unfold hasPartner Emitted.raw
    rw [reading_of_value hvalue, Option.any_some, hnull _ (Assoc.mem_of_get? hget)]
    rfl

/-! ### Nodes in their places -/

/-- Nodes whose tables stand in order from some position on, each under its own name. -/
structure Placed (layout : Layout) (start : Nat) (nodes : List Node) : Prop where
  positions : (Node.preorderAll nodes).map (·.position) =
    List.range' start (Node.preorderAll nodes).length
  models : ∀ n ∈ Node.preorderAll nodes, layout.tables[n.position]? = some n.model
  nodup : ((Node.preorderAll nodes).map (·.model.table)).Nodup

/-- The root of a well-numbered layout is in its place. -/
theorem WellNumbered.placed (h : layout.WellNumbered) : layout.Placed 0 [layout.root] := by
  have hall : Node.preorderAll [layout.root] = layout.root.preorder := by
    rw [Node.preorderAll, Node.preorderAll, List.append_nil]
  have hlength : layout.tables.length = layout.root.preorder.length := by
    rw [h.tables_eq, List.length_map]
  refine ⟨?_, ?_, ?_⟩
  · rw [hall, h.positions_eq, hlength, List.range_eq_range']
  · intro n hn
    rw [hall] at hn
    exact h.tables_position hn
  · rw [hall]
    exact h.nodup

namespace Placed

variable {start : Nat} {rest : List Node}

/-- The first of placed nodes stands where they start. -/
theorem position_eq (h : layout.Placed start (node :: rest)) : node.position = start := by
  have hpositions := h.positions
  rw [Node.preorderAll, Node.preorder_eq, List.cons_append, List.map_cons, List.length_cons,
    List.range'_succ] at hpositions
  exact (List.cons.inj hpositions).1

/-- The table of the first of placed nodes is its own. -/
theorem model_eq (h : layout.Placed start (node :: rest)) :
    layout.tables[node.position]? = some node.model := by
  refine h.models node ?_
  rw [Node.preorderAll]
  exact List.mem_append_left _ node.mem_preorder_self

/-- The nodes below the first one. -/
theorem below (h : layout.Placed start (node :: rest)) :
    layout.Placed (start + 1) node.nested := by
  obtain ⟨hpositions, hmodels, hnodup⟩ := h
  rw [Node.preorderAll, Node.preorder_eq] at hpositions hmodels hnodup
  rw [List.cons_append, List.map_cons, List.length_cons, List.range'_succ, List.map_append,
    List.length_append, ← List.range'_append_1] at hpositions
  refine ⟨?_, fun n hn => hmodels n ?_, ?_⟩
  · exact (List.append_inj (List.cons.inj hpositions).2 (by simp)).1
  · exact List.mem_append_left _ (List.mem_cons_of_mem _ hn)
  · rw [List.cons_append, List.map_cons, List.nodup_cons, List.map_append, List.nodup_append]
      at hnodup
    exact hnodup.2.1

/-- The nodes after the first one and those below it. -/
theorem after (h : layout.Placed start (node :: rest)) :
    layout.Placed (start + node.preorder.length) rest := by
  obtain ⟨hpositions, hmodels, hnodup⟩ := h
  rw [Node.preorderAll] at hpositions hmodels hnodup
  rw [List.map_append, List.length_append, ← List.range'_append_1] at hpositions
  refine ⟨?_, fun n hn => hmodels n (List.mem_append_right _ hn), ?_⟩
  · exact (List.append_inj hpositions (by simp)).2
  · rw [List.map_append, List.nodup_append] at hnodup
    exact hnodup.2.1

end Placed

/-! ### Views of the emitted rows -/

/-- The parts of emitted rows for some tables. -/
def view (start length : Nat) (es : List (Emitted layout)) : List JoinedRow :=
  es.map fun e => window start length e.row

/-- The front of a part of the rows is a shorter part. -/
theorem map_take_view (start n m : Nat) (es : List (Emitted layout)) :
    (view start (n + m) es).map (List.take n) = view start n es := by
  unfold view
  rw [List.map_map]
  refine List.map_congr_left fun e _ => ?_
  show (window start (n + m) e.row).take n = _
  unfold window
  rw [List.take_take, Nat.min_eq_left (Nat.le_add_right n m)]

/-- The back of a part of the rows is a later part. -/
theorem map_drop_view (start n m : Nat) (es : List (Emitted layout)) :
    (view start (n + m) es).map (List.drop n) = view (start + n) m es := by
  unfold view
  rw [List.map_map]
  refine List.map_congr_left fun e _ => ?_
  show (window start (n + m) e.row).drop n = _
  unfold window
  rw [List.drop_take, List.drop_drop, Nat.add_sub_cancel_left]

/-- The first place of a part of a row. -/
theorem getElem?_of_head?_window {row : JoinedRow} {start length : Nat}
    {partner : Option (List (String × Scalar))}
    (h : (window start length row).head? = some partner) : row[start]? = some partner := by
  unfold window at h
  rw [List.head?_take] at h
  split at h
  · cases h
  · rwa [List.head?_drop] at h

/-! ### The rows of one record among those of several -/

/-- The key of a joined row is that of its record. -/
theorem key?_of_mem_joined {r : Record} {row : JoinedRow} (hmodel : r.model = node.model)
    (h : row ∈ r.joined node) : row.key? node.model = r.primaryKey? := by
  unfold JoinedRow.key?
  rw [Record.head?_of_mem_joined h, ← hmodel]
  rfl

/-- Among the joined rows of records, those with the key of a record are its own. -/
theorem filter_flatMap_joined {records : List Record} (hkeys : HasKeys records)
    (hmodel : ∀ r ∈ records, r.model = node.model) {r : Record} (hr : r ∈ records) {k : Scalar}
    (hk : r.primaryKey? = some k) :
    (records.flatMap fun r => r.joined node).filter (fun row => row.key? node.model == some k) =
      r.joined node := by
  obtain ⟨front, back, rfl⟩ := List.append_of_mem hr
  have hnodup := hkeys.distinct.nodup
  rw [List.filterMap_append, List.filterMap_cons, hk, List.nodup_append, List.nodup_cons] at hnodup
  obtain ⟨-, ⟨hback, -⟩, hfront⟩ := hnodup
  -- the rows of another record have another key
  have hother : ∀ other ∈ front ++ r :: back, other.primaryKey? ≠ some k →
      (other.joined node).filter (fun row => row.key? node.model == some k) = [] := by
    intro other hmem hne
    refine List.filter_eq_nil_iff.2 fun row hrow => ?_
    rw [key?_of_mem_joined (hmodel other hmem) hrow, beq_iff_eq]
    exact hne
  have hown : (r.joined node).filter (fun row => row.key? node.model == some k) =
      r.joined node := by
    refine List.filter_eq_self.2 fun row hrow => ?_
    rw [key?_of_mem_joined (hmodel r hr) hrow, hk, beq_self_eq_true]
  have hnone : ∀ others : List Record, (∀ other ∈ others, other ∈ front ++ r :: back ∧
      other.primaryKey? ≠ some k) → (others.flatMap fun r => r.joined node).filter
        (fun row => row.key? node.model == some k) = [] := by
    intro others hothers
    rw [List.filter_flatMap, List.flatMap_eq_nil_iff]
    exact fun other hmem => hother other (hothers other hmem).1 (hothers other hmem).2
  have hfrontNil := hnone front fun other hmem => ⟨List.mem_append_left _ hmem, fun heq =>
    hfront k (List.mem_filterMap.2 ⟨other, hmem, heq⟩) k List.mem_cons_self rfl⟩
  have hbackNil := hnone back fun other hmem =>
    ⟨List.mem_append_right _ (List.mem_cons_of_mem _ hmem), fun heq =>
      hback (List.mem_filterMap.2 ⟨other, hmem, heq⟩)⟩
  rw [List.flatMap_append, List.flatMap_cons, List.filter_append, List.filter_append, hown,
    hfrontNil, hbackNil, List.nil_append, List.append_nil]

/-- What is computed from the keys of records is computed for each record. -/
theorem map_filterMap_primaryKey? {β : Type} {records : List Record} (h : HasKeys records)
    {f : Scalar → β} {g : Record → β}
    (hf : ∀ r ∈ records, ∀ k, r.primaryKey? = some k → f k = g r) :
    (records.filterMap Record.primaryKey?).map f = records.map g := by
  rw [List.map_filterMap, ← List.filterMap_eq_map]
  refine List.filterMap_congr fun r hr => ?_
  obtain ⟨k, hk, -⟩ := h.key r hr
  rw [hk, Option.map_some, hf r hr k hk]
  rfl

/-- The key that is read from an emitted row is the one of the record in the row. -/
theorem key?_emitted (hdeclared : layout.Declared)
    (hnode : layout.tables[node.position]? = some node.model) {records : List Record}
    {es : List (Emitted layout)}
    (h : SameArrivals (view node.position node.preorder.length es)
      (records.flatMap fun r => r.joined node)) :
    ∀ e ∈ es, layout.key? node e.raw =
      (window node.position node.preorder.length e.row).key? node.model := by
  intro e he
  obtain ⟨r, -, hmem⟩ := List.mem_flatMap.1 ((h.mem_iff _).1 (List.mem_map_of_mem he))
  have hhead := Record.head?_of_mem_joined hmem
  rw [(fieldsOf_emitted hdeclared e hnode (getElem?_of_head?_window hhead)).2.1]
  unfold JoinedRow.key?
  rw [hhead]

/-- The keys of emitted rows arrive as those of the records in them do. -/
theorem sameArrivals_keys (hdeclared : layout.Declared)
    (hnode : layout.tables[node.position]? = some node.model) {records : List Record}
    (hkeys : HasKeys records) (hmodel : ∀ r ∈ records, r.model = node.model)
    {es : List (Emitted layout)}
    (h : SameArrivals (view node.position node.preorder.length es)
      (records.flatMap fun r => r.joined node)) :
    SameArrivals ((es.map Emitted.raw).map (layout.key? node))
      ((records.filterMap Record.primaryKey?).map some) := by
  have hleft : (es.map Emitted.raw).map (layout.key? node) =
      (view node.position node.preorder.length es).map (JoinedRow.key? node.model) := by
    unfold view
    rw [List.map_map, List.map_map]
    exact List.map_congr_left (key?_emitted hdeclared hnode h)
  -- each joined row of a record has its key, so the key arrives once or more, all in one place
  have hright : (records.flatMap fun r => r.joined node).map (JoinedRow.key? node.model) =
      records.flatMap fun r => List.replicate (r.joined node).length r.primaryKey? := by
    rw [List.map_flatMap]
    refine List.flatMap_congr fun r hr => ?_
    rw [List.eq_replicate_iff]
    refine ⟨List.length_map _, fun b hb => ?_⟩
    obtain ⟨row, hrow, rfl⟩ := List.mem_map.1 hb
    exact key?_of_mem_joined (hmodel r hr) hrow
  have hrepeat := SameArrivals.flatMap_replicate Record.primaryKey?
    (fun r => (r.joined node).length) (c := records) fun r _ =>
      mt List.length_eq_zero_iff.1 (Record.joined_regular node r).1
  rw [hleft, map_filterMap_primaryKey? hkeys fun r _ k hk => hk.symm]
  exact (h.map _).trans (hright ▸ hrepeat)

/-- **The groups of the rows of several records** are the rows of each of them, so that where the
rows of one record give that record, the groups give all of them. -/
theorem map_grouped_joined (hdeclared : layout.Declared)
    (hnode : layout.tables[node.position]? = some node.model) {records : List Record}
    (hkeys : HasKeys records) (hmodel : ∀ r ∈ records, r.model = node.model)
    (hgrouped : ∀ r ∈ records, ∀ es : List (Emitted layout),
      SameArrivals (view node.position node.preorder.length es) (r.joined node) →
        layout.grouped node (es.map Emitted.raw) = r)
    {es : List (Emitted layout)}
    (h : SameArrivals (view node.position node.preorder.length es)
      (records.flatMap fun r => r.joined node)) :
    (groupsBy (layout.key? node) (es.map Emitted.raw)).map (layout.grouped node) = records := by
  have hkey := key?_emitted hdeclared hnode h
  have harrivals := sameArrivals_keys hdeclared hnode hkeys hmodel h
  -- the rows with the key of a record are the ones in which its joined rows arrive
  have hrecord : ∀ r ∈ records, ∀ k, r.primaryKey? = some k →
      layout.grouped node ((es.map Emitted.raw).filter fun row => layout.key? node row == some k) =
        r := by
    intro r hr k hk
    have hown : view node.position node.preorder.length
        (es.filter fun e => layout.key? node e.raw == some k) =
          (view node.position node.preorder.length es).filter
            fun row => row.key? node.model == some k := by
      unfold view
      rw [List.filter_map]
      refine congrArg _ (List.filter_congr fun e he => ?_)
      rw [hkey e he]
      rfl
    rw [List.filter_map]
    refine hgrouped r hr _ ?_
    rw [← filter_flatMap_joined hkeys hmodel hr hk]
    exact hown ▸ h.filter _
  rw [groupsBy_eq_of_keys hkeys.distinct harrivals, List.map_map]
  exact (map_filterMap_primaryKey? hkeys hrecord).trans (List.map_id' records)

/-- **A slot.** Where the rows of one record give that record, rows in which the joined rows of a
slot arrive give the records of the slot. -/
theorem children_joined (hdeclared : layout.Declared)
    (hnode : layout.tables[node.position]? = some node.model) {records : List Record}
    (hkeys : HasKeys records) (hmodel : ∀ r ∈ records, r.model = node.model)
    (hgrouped : ∀ r ∈ records, ∀ es : List (Emitted layout),
      SameArrivals (view node.position node.preorder.length es) (r.joined node) →
        layout.grouped node (es.map Emitted.raw) = r)
    {es : List (Emitted layout)}
    (h : SameArrivals (view node.position node.preorder.length es)
      (Record.alternatives node records)) :
    layout.children node (es.map Emitted.raw) = records := by
  unfold children partners
  unfold Record.alternatives at h
  by_cases hempty : records = []
  · -- no row has a partner
    rw [hempty, List.isEmpty_nil, if_pos rfl] at h
    have hnone : (es.map Emitted.raw).filter (layout.hasPartner node) = [] := by
      refine List.filter_eq_nil_iff.2 fun row hrow => ?_
      obtain ⟨e, he, rfl⟩ := List.mem_map.1 hrow
      have hwindow := List.mem_singleton.1 ((h.mem_iff _).1 (List.mem_map_of_mem he))
      have hhead : (window node.position node.preorder.length e.row).head? = some none := by
        rw [hwindow, Node.preorder_eq, List.length_cons, List.replicate_succ, List.head?_cons]
      rw [hasPartner_emitted hdeclared e hnode (getElem?_of_head?_window hhead)]
      exact Bool.false_ne_true
    rw [hnone, hempty]
    rfl
  · -- every row has one
    rw [if_neg (mt List.isEmpty_iff.1 hempty)] at h
    have hall : (es.map Emitted.raw).filter (layout.hasPartner node) = es.map Emitted.raw := by
      refine List.filter_eq_self.2 fun row hrow => ?_
      obtain ⟨e, he, rfl⟩ := List.mem_map.1 hrow
      obtain ⟨r, hr, hmem⟩ := List.mem_flatMap.1 ((h.mem_iff _).1 (List.mem_map_of_mem he))
      have hrow := getElem?_of_head?_window (Record.head?_of_mem_joined hmem)
      obtain ⟨k, hk, hnull⟩ := hkeys.key r hr
      unfold Record.primaryKey? Record.get? at hk
      unfold hasPartner
      rw [(fieldsOf_emitted hdeclared e hnode hrow).2.2, ← hmodel r hr, hk, Option.any_some, hnull]
      rfl
    rw [hall]
    exact map_grouped_joined hdeclared hnode hkeys hmodel hgrouped h

/-- A record that a request can give is of its model. -/
theorem model_of_shaped {r : Record} (h : r.Shaped node) : r.model = node.model := by
  cases node
  rw [Record.Shaped] at h
  exact h.1

mutual

/-- **A record.** Rows in which the joined rows of a record arrive, with repetitions, have that
record as their group. -/
theorem grouped_joined (hdeclared : layout.Declared) (node : Node) {start : Nat} {rest : List Node}
    (hplaced : layout.Placed start (node :: rest)) {r : Record} (hshaped : r.Shaped node)
    {es : List (Emitted layout)}
    (h : SameArrivals (view node.position node.preorder.length es) (r.joined node)) :
    layout.grouped node (es.map Emitted.raw) = r := by
  match node with
  | ⟨model, position, nested⟩ =>
    obtain ⟨hmodel, -, hslots, hbelow⟩ := by rw [Record.Shaped] at hshaped; exact hshaped
    obtain ⟨hne, -⟩ := Record.joined_regular ⟨model, position, nested⟩ r
    cases es with
    | nil =>
      -- a record has a joined row
      obtain ⟨row, hrow⟩ := List.exists_mem_of_ne_nil _ hne
      exact absurd ((h.mem_iff row).2 hrow) List.not_mem_nil
    | cons first others =>
      have hfirst := (h.mem_iff _).1 (List.mem_map_of_mem (List.mem_cons_self (a := first)))
      have hrow := getElem?_of_head?_window (Record.head?_of_mem_joined hfirst)
      have hplacedBelow := hplaced.below
      have hstart := hplaced.position_eq
      -- without its own fields, a joined row of the record is one of the slots below
      have hviewBelow : SameArrivals
          (view (start + 1) (Node.preorderAll nested).length (first :: others))
          (r.joinedBelow nested) := by
        have hdrop := h.map (List.drop 1)
        rw [hstart, Node.preorder, List.length_cons, Nat.add_comm, map_drop_view, Record.joined,
          List.map_map] at hdrop
        have hid : (r.joinedBelow nested).map (List.drop 1 ∘ (some r.values :: ·)) =
            r.joinedBelow nested := List.map_id' _
        rwa [hid] at hdrop
      -- the slots are those of the nodes below, so a record is told by what stands under each
      have hslotNodup : (r.slots.map Prod.fst).Nodup := by
        rw [hslots]
        exact hplacedBelow.nodup.sublist ((Node.sublist_preorderAll nested).map _)
      rw [List.map_cons, grouped_eq _ (List.head?_cons (l := others.map Emitted.raw)),
        (fieldsOf_emitted hdeclared first hplaced.model_eq hrow).1, ← List.map_cons,
        groupedSlots_joined hdeclared nested hplacedBelow hbelow hviewBelow]
      have hrslots := Assoc.eq_map_get? hslotNodup []
      rw [hslots, List.map_map] at hrslots
      obtain ⟨rmodel, rvalues, rslots⟩ := r
      cases hmodel
      exact congrArg _ hrslots.symm

/-- **The slots of a record.** -/
theorem groupedSlots_joined (hdeclared : layout.Declared) (nodes : List Node) {start : Nat}
    (hplaced : layout.Placed start nodes) {r : Record} (hshaped : r.ShapedBelow nodes)
    {es : List (Emitted layout)}
    (h : SameArrivals (view start (Node.preorderAll nodes).length es) (r.joinedBelow nodes)) :
    layout.groupedSlots nodes (es.map Emitted.raw) =
      nodes.map fun node => (node.model.table, r.under node) := by
  match nodes with
  | [] => rw [groupedSlots]; rfl
  | node :: rest =>
    obtain ⟨hrecords, hkeys, hrest⟩ := by rw [Record.ShapedBelow] at hshaped; exact hshaped
    obtain ⟨hfronts, hlength⟩ := Record.alternatives_regular (r.under node)
      fun child _ => Record.joined_regular node child
    obtain ⟨hbacks, -⟩ := Record.joinedBelow_regular rest r
    rw [Node.preorderAll, List.length_append, Record.joinedBelow_cons] at h
    -- the rows of this slot, repeated for those of the others, and the other way round
    have hfront := h.map (List.take node.preorder.length)
    rw [map_take_view] at hfront
    have hback := h.map (List.drop node.preorder.length)
    rw [map_drop_view] at hback
    have hchildren : layout.children node (es.map Emitted.raw) = r.under node := by
      refine children_joined hdeclared hplaced.model_eq hkeys
        (fun child hchild => model_of_shaped (hrecords child hchild))
        (fun child hchild es' h' =>
          grouped_joined hdeclared node hplaced (hrecords child hchild) h')
        ?_
      rw [hplaced.position_eq]
      exact hfront.trans (SameArrivals.map_take_product hlength hbacks)
    rw [groupedSlots_cons, hchildren, groupedSlots_joined hdeclared rest hplaced.after hrest
      (hback.trans (SameArrivals.map_drop_product hlength hfronts))]
    rfl

end

/-- **A forest.** The groups of its joined rows are its records. -/
theorem forest_joined (hdeclared : layout.Declared) (hplaced : layout.Placed 0 [layout.root])
    {forest : List Record} (hshaped : ∀ r ∈ forest, r.Shaped layout.root) (hkeys : HasKeys forest)
    {es : List (Emitted layout)}
    (hrows : es.map Emitted.row = forest.flatMap (Record.joined layout.root)) :
    layout.forest (es.map Emitted.raw) = forest := by
  -- seen from the root, a joined row is the whole row
  have hview : view layout.root.position layout.root.preorder.length es =
      forest.flatMap (Record.joined layout.root) := by
    rw [← hrows, hplaced.position_eq]
    refine List.map_congr_left fun e he => ?_
    have hmem : e.row ∈ forest.flatMap (Record.joined layout.root) :=
      hrows ▸ List.mem_map_of_mem he
    obtain ⟨r, -, hrow⟩ := List.mem_flatMap.1 hmem
    unfold window
    rw [List.drop_zero, ← (Record.joined_regular layout.root r).2 _ hrow, List.take_length]
  refine map_grouped_joined hdeclared hplaced.model_eq hkeys
    (fun r hr => model_of_shaped (hshaped r hr))
    (fun r hr es' h' => grouped_joined hdeclared layout.root hplaced (hshaped r hr) h') ?_
  rw [hview]
  rfl

/-- Every table can be read from an emitted row. -/
theorem readable_emitted (hdeclared : layout.Declared) (e : Emitted layout)
    (hnode : layout.tables[node.position]? = some node.model) : layout.Readable e.raw node := by
  obtain ⟨block, -, -, hread⟩ := value_of_emits e.emits hdeclared.nodup hnode
  have hkey := hdeclared.key node.model (List.mem_of_getElem? hnode)
  obtain ⟨v, -, hvalue⟩ := hread _ (List.contains_iff_mem.1 hkey)
  refine ⟨⟨some v, hvalue⟩, check_eq_ok_iff.2 fun field hfield => ?_⟩
  obtain ⟨v, -, hvalue⟩ := hread field hfield
  exact ⟨some v, hvalue⟩

end Layout

/-- **Assembly undoes flattening.** A forest that its request can give, flattened by outer joins
and returned with whatever NULLs, is assembled again. -/
theorem assemble_joined {base : Model} {joins : List Join} {layout : Layout}
    (h : Layout.ofJoins base joins = .ok layout) (hdeclared : layout.Declared)
    {forest : List Record} (hshaped : ∀ r ∈ forest, r.Shaped layout.root) (hkeys : HasKeys forest)
    {returned : List (List (String × Scalar))}
    (hreturned : List.Forall₂ (Emits layout.tables) (forest.flatMap (Record.joined layout.root))
      returned) :
    assemble base joins (returned.map fun fields => Row.fetch .named ⟨fields⟩) = .ok forest := by
  have hplaced := (Layout.wellNumbered_ofJoins h).placed
  obtain ⟨es, hrows, rfl⟩ := exists_emitted hreturned
  have hraw : (es.map Emitted.fields).map (fun fields => Row.fetch .named ⟨fields⟩) =
      es.map Emitted.raw := List.map_map
  -- every table can be read in every row, so that there is no error
  have hprobe : layout.probeForest (es.map Emitted.raw) = .ok () := by
    refine Layout.probeForest_of_assembles fun row hrow =>
      Layout.assembles_of_readable fun n hn => ?_
    obtain ⟨e, -, rfl⟩ := List.mem_map.1 hrow
    refine Layout.readable_emitted hdeclared e (hplaced.models n ?_)
    rw [Node.preorderAll, Node.preorderAll, List.append_nil]
    exact hn
  rw [hraw, assemble_eq h, hprobe, Layout.forest_joined hdeclared hplaced hshaped hkeys hrows]
  rfl

namespace Survey

/-- Two exercises, one of them with two questions, of which one has two responses. -/
def answered : List Record :=
  [exercise 2 [question 5 2 [response 8 5, response 9 5], question 6 2 []], exercise 1 []]

/-- What a database returns for them, with NULLs of different kinds. -/
def returned : List (List (String × Scalar)) :=
  let two := [("id", Scalar.int64 (some 2)), ("title", .text (some "T"))]
  let five := [("id", Scalar.int64 (some 5)), ("label", .text (some "L")),
    ("exercises_id", .int64 (some 2))]
  let response (key : Int64) := [("id", Scalar.int64 (some key)), ("questions_id", .int64 (some 5))]
  let nobody := [("id", Scalar.int64 none), ("questions_id", .text none)]
  [two ++ (five ++ (response 8 ++ [])), two ++ (five ++ (response 9 ++ [])),
    two ++ ([("id", .int64 (some 6)), ("label", .text (some "L")),
      ("exercises_id", .int64 (some 2))] ++ (nobody ++ [])),
    [("id", .int64 (some 1)), ("title", .text (some "T"))] ++
      ([("id", .text none), ("label", .text none), ("exercises_id", .double none)] ++
        (nobody ++ []))]

/-- Responses are what their request can give. -/
theorem shaped_response (k q : Int64) : (response k q).Shaped ⟨responses, 2, []⟩ := by
  rw [Record.Shaped, Record.ShapedBelow]
  exact ⟨rfl, rfl, rfl, trivial⟩

/-- So are questions with responses of different keys. -/
theorem shaped_question (k e : Int64) {records : List Record}
    (h : ∀ r ∈ records, r.Shaped ⟨responses, 2, []⟩) (hkeys : HasKeys records) :
    (question k e records).Shaped ⟨questions, 1, [⟨responses, 2, []⟩]⟩ := by
  rw [Record.Shaped, Record.ShapedBelow, Record.ShapedBelow]
  exact ⟨rfl, rfl, rfl, h, hkeys, trivial⟩

/-- So are exercises with questions of different keys. -/
theorem shaped_exercise (k : Int64) {records : List Record}
    (h : ∀ r ∈ records, r.Shaped ⟨questions, 1, [⟨responses, 2, []⟩]⟩) (hkeys : HasKeys records) :
    (exercise k records).Shaped layout.root := by
  rw [layout, Record.Shaped, Record.ShapedBelow, Record.ShapedBelow]
  exact ⟨rfl, rfl, rfl, h, hkeys, trivial⟩

/-- So are these exercises. -/
theorem shaped_answered : ∀ r ∈ answered, r.Shaped layout.root := by
  have hnil : HasKeys [] := .of_keys [] rfl (by decide) ⟨by decide, by decide⟩
  have hresponses : HasKeys [response 8 5, response 9 5] :=
    .of_keys [.int64 (some 8), .int64 (some 9)] rfl (by decide) ⟨by decide, by decide⟩
  have hquestions : HasKeys [question 5 2 [response 8 5, response 9 5], question 6 2 []] :=
    .of_keys [.int64 (some 5), .int64 (some 6)] rfl (by decide) ⟨by decide, by decide⟩
  have hfive := shaped_question 5 2 (by simp [shaped_response]) hresponses
  have hsix := shaped_question 6 2 (by simp) hnil
  have htwo := shaped_exercise 2 (by simpa using ⟨hfive, hsix⟩) hquestions
  have hone := shaped_exercise 1 (by simp) hnil
  simpa [answered] using ⟨htwo, hone⟩

/-- Each exercise and each question has its rows, with NULLs where there is nothing below it. -/
theorem emits_returned :
    List.Forall₂ (Emits layout.tables) (answered.flatMap (Record.joined layout.root)) returned := by
  have hrows : answered.flatMap (Record.joined layout.root) =
      [[some (exercise 2 []).values, some (question 5 2 []).values, some (response 8 5).values],
        [some (exercise 2 []).values, some (question 5 2 []).values, some (response 9 5).values],
        [some (exercise 2 []).values, some (question 6 2 []).values, none],
        [some (exercise 1 []).values, none, none]] := rfl
  have hnobody : ∀ nulls : List (String × Scalar), nulls.map Prod.fst = responses.fields →
      (∀ e ∈ nulls, e.2.isNull = true) → Emits [responses] [none] (nulls ++ []) :=
    fun _ names null => .noPartner names null .nil
  rw [hrows]
  refine .cons (.partner rfl (.partner rfl (.partner rfl .nil))) ?_
  refine .cons (.partner rfl (.partner rfl (.partner rfl .nil))) ?_
  refine .cons (.partner rfl (.partner rfl (hnobody _ rfl (by decide)))) ?_
  exact .cons (.partner rfl (.noPartner rfl (by decide) (hnobody _ rfl (by decide)))) .nil

end Survey

/-- The rows of exercises with several questions and responses, and with none. -/
theorem assemble_joined_survey :
    assemble Survey.exercises Survey.joins
        (Survey.returned.map fun fields => Row.fetch .named ⟨fields⟩) = .ok Survey.answered := by
  have hlayout : Layout.ofJoins Survey.exercises Survey.joins = .ok Survey.layout := rfl
  have hkeys : HasKeys Survey.answered :=
    .of_keys [.int64 (some 2), .int64 (some 1)] rfl (by decide) ⟨by decide, by decide⟩
  exact assemble_joined hlayout ⟨by decide, by decide⟩ Survey.shaped_answered hkeys
    Survey.emits_returned

end QueryForest
