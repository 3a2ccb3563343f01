import QueryForest.Proofs.Forest.Assembly

namespace QueryForest

/-!
# Assembled forests are well formed

Rows come from outside: they may be ragged, repeat or miss columns, and hold keys that are NULL or
not even equal to themselves. Whatever they hold, a forest that was assembled has the shape of the
request.

* `Record.IsOf` — an instance of a model: declared fields only, each once and in declared order,
  and one slot for each relation that was asked for;
* `KeysApart` — records of which no two have the same key;
* `Record.WellFormed` — both of these in the record and in all records below it;
* `Layout.wellFormed_grouped` — the record of a group of rows is well formed;
* `wellFormed_of_assemble` — so is every forest that was assembled.
-/

/-- An instance of a model with slots for some relations: its fields are declared ones, each once
and in declared order, and its slots are those of the relations, each once and in their order. -/
structure Record.IsOf (model : Model) (relations : List String) (r : Record) : Prop where
  model_eq : r.model = model
  declared : (r.values.map Prod.fst).Sublist model.fields
  fields_nodup : (r.values.map Prod.fst).Nodup
  slots_eq : r.slots.map Prod.fst = relations
  slots_nodup : relations.Nodup

/-- Any two records that both have a primary key have different ones. -/
def KeysApart (records : List Record) : Prop :=
  records.Pairwise fun a b =>
    ∀ x, a.primaryKey? = some x → ∀ y, b.primaryKey? = some y → x.same y = false

namespace Record

/-- If the model declares its primary key, the record has it, and it is not NULL. -/
def Keyed (r : Record) : Prop :=
  r.model.declares r.model.primaryKey = true → ∃ key, r.primaryKey? = some key ∧ key.isNull = false

mutual

/-- A record as a request asks for it, with all that is below it. -/
def WellFormed : Join → Record → Prop
  | ⟨model, nested⟩, r => r.IsOf model (nested.map (·.model.table)) ∧ WellFormedBelow nested r

/-- The slots of a record as several requests ask for them: each is there, and its records are
keyed, told apart by their keys, and well formed. -/
def WellFormedBelow : List Join → Record → Prop
  | [], _ => True
  | join :: rest, r =>
    (∃ records, r.related? join.model.table = some records ∧ KeysApart records ∧
      ∀ child ∈ records, child.Keyed ∧ WellFormed join child) ∧ WellFormedBelow rest r

end

end Record

/-! ### The nodes of a request -/

namespace Node

/-- The node of a join has its model. -/
theorem model_ofJoin (next : Nat) (join : Join) : (ofJoin next join).1.model = join.model := by
  cases join
  rw [ofJoin]

/-- The nodes of several joins have their tables in order. -/
theorem tables_ofJoins (next : Nat) (joins : List Join) :
    (ofJoins next joins).1.map (·.model.table) = joins.map (·.model.table) := by
  induction joins generalizing next with
  | nil => rfl
  | cons join rest ih =>
    rw [ofJoins, List.map_cons, List.map_cons, model_ofJoin, ih]

end Node

namespace Layout

variable {layout : Layout} {node : Node}

/-! ### The records of groups -/

/-- The record of some rows is of its model, with a slot for each relation. -/
theorem isOf_grouped (layout : Layout) (node : Node)
    (hsiblings : (node.nested.map (·.model.table)).Nodup) {rows : List RawRow} (hne : rows ≠ []) :
    (layout.grouped node rows).IsOf node.model (node.nested.map (·.model.table)) := by
  obtain ⟨first, rest, rfl⟩ := List.exists_cons_of_ne_nil hne
  rw [grouped_eq node (List.head?_cons (a := first) (l := rest))]
  obtain ⟨hdeclared, hnodup⟩ :=
    names_foundEntries (fun field => layout.reading node field first) node.model.fields
  refine ⟨rfl, hdeclared, hnodup, ?_, hsiblings⟩
  rw [groupedSlots_eq_map, List.map_map]
  rfl

/-- The records of groups have the keys of their first rows, which are different. -/
theorem keysApart_grouped (node : Node) (rows : List RawRow) :
    KeysApart ((groupsBy (layout.key? node) rows).map (layout.grouped node)) := by
  refine List.pairwise_map.2 ((groupsBy_pairwise (layout.key? node) rows).imp_of_mem ?_)
  intro group other hgroup hother hheads x hx y hy
  obtain ⟨first, _, rfl⟩ := List.exists_cons_of_ne_nil (ne_nil_of_mem_groupsBy hgroup)
  obtain ⟨second, _, rfl⟩ := List.exists_cons_of_ne_nil (ne_nil_of_mem_groupsBy hother)
  have hne := hheads first List.head?_cons second List.head?_cons
  rw [primaryKey?_grouped layout List.head?_cons] at hx hy
  unfold sameKey at hne
  rw [hx, hy] at hne
  exact hne

/-- A related record is made from a row with a partner, and has the key of that row. -/
theorem keyed_grouped {rows group : List RawRow} (h : group ∈ layout.partners node rows) :
    (layout.grouped node group).Keyed := by
  obtain ⟨first, _, rfl⟩ := List.exists_cons_of_ne_nil (ne_nil_of_mem_groupsBy h)
  intro hdeclares
  have hpartner : layout.hasPartner node first = true :=
    (List.mem_filter.1 (subset_of_mem_groupsBy h List.mem_cons_self)).2
  unfold hasPartner at hpartner
  rw [grouped_model] at hdeclares
  rw [primaryKey?_grouped layout List.head?_cons, key?, if_pos hdeclares]
  cases hkey : layout.reading node node.model.primaryKey first with
  | none =>
    rw [hkey] at hpartner
    cases hpartner
  | some key =>
    rw [hkey, Option.any_some, Bool.not_eq_true'] at hpartner
    exact ⟨key, rfl, hpartner⟩

mutual

/-- **The record of a group of rows is well formed**, whatever its rows hold. -/
theorem wellFormed_grouped (join : Join) (next : Nat)
    (hnodup : ((Node.ofJoin next join).1.preorder.map (·.model.table)).Nodup)
    {rows : List RawRow} (hne : rows ≠ []) :
    (layout.grouped (Node.ofJoin next join).1 rows).WellFormed join := by
  match join with
  | ⟨model, nested⟩ =>
    rw [Node.ofJoin] at hnodup ⊢
    rw [Node.preorder, List.map_cons, List.nodup_cons] at hnodup
    have hsiblings := hnodup.2.sublist ((Node.sublist_preorderAll _).map (·.model.table))
    have hisOf := isOf_grouped layout ⟨model, next, (Node.ofJoins (next + 1) nested).1⟩
      hsiblings hne
    rw [Record.WellFormed]
    refine ⟨?_, wellFormedBelow_grouped nested (next + 1) hnodup.2 rows fun node hnode => ?_⟩
    · rw [Node.tables_ofJoins] at hisOf
      exact hisOf
    · -- no two slots have one name, so each is found under that of its own table
      unfold Record.related?
      rw [grouped_slots, groupedSlots_eq_map]
      exact Assoc.get?_map_of_nodup hsiblings (fun n => layout.children n rows) hnode

/-- The slots of a record are well formed if they hold the records of groups of its rows. -/
theorem wellFormedBelow_grouped (joins : List Join) (next : Nat)
    (hnodup : ((Node.preorderAll (Node.ofJoins next joins).1).map (·.model.table)).Nodup)
    (rows : List RawRow) {r : Record} (hslots : ∀ node ∈ (Node.ofJoins next joins).1,
      r.related? node.model.table = some (layout.children node rows)) :
    r.WellFormedBelow joins := by
  match joins with
  | [] =>
    rw [Record.WellFormedBelow]
    trivial
  | join :: rest =>
    rw [Node.ofJoins] at hnodup hslots
    rw [Node.preorderAll, List.map_append, List.nodup_append] at hnodup
    rw [Record.WellFormedBelow]
    refine ⟨⟨layout.children (Node.ofJoin next join).1 rows, ?_, keysApart_grouped _ _,
      fun child hchild => ?_⟩, ?_⟩
    · rw [← Node.model_ofJoin next join]
      exact hslots _ List.mem_cons_self
    · -- a record of the slot is that of a group, whose rows fill the slots below
      obtain ⟨group, hgroup, rfl⟩ := List.mem_map.1 hchild
      exact ⟨keyed_grouped hgroup,
        wellFormed_grouped join next hnodup.1 (ne_nil_of_mem_groupsBy hgroup)⟩
    · exact wellFormedBelow_grouped rest _ hnodup.2.1 rows fun node hnode =>
        hslots node (List.mem_cons_of_mem _ hnode)

end

end Layout

/-- **Every assembled forest is well formed.** Its records are instances of the models asked for at
every depth, with a slot for each relation that was asked for; related records have keys that are
not NULL where their models declare them; and neither two roots nor two records of one slot have
the same key. -/
theorem wellFormed_of_assemble {base : Model} {joins : List Join} {rows : List RawRow}
    {forest : List Record} (h : assemble base joins rows = .ok forest) :
    (∀ r ∈ forest, r.WellFormed ⟨base, joins⟩) ∧ KeysApart forest := by
  obtain ⟨layout, hlayout, -⟩ := bind_eq_ok.1 h
  rw [assemble_eq hlayout] at h
  obtain ⟨_, -, rfl⟩ := map_eq_ok.1 h
  have hnodup := (Layout.wellNumbered_ofJoins hlayout).nodup
  have hroot : layout.root = (Node.ofJoin 0 ⟨base, joins⟩).1 := by
    rw [Layout.root_ofJoins hlayout, Node.ofJoin]
  rw [hroot] at hnodup
  refine ⟨fun r hr => ?_, Layout.keysApart_grouped layout.root rows⟩
  obtain ⟨group, hgroup, rfl⟩ := List.mem_map.1 hr
  rw [hroot]
  exact Layout.wellFormed_grouped ⟨base, joins⟩ 0 hnodup (ne_nil_of_mem_groupsBy hgroup)

namespace Survey

/-- A row of some keys, one for each table, and of a label. -/
def keys (values : List Scalar) : RawRow :=
  Row.fetch .named ⟨values.map (("id", ·)) ++ [("label", .text none)]⟩

/-- Ragged rows: one with a single key, which all tables read, one with more keys than tables, two
without a question, of which one has no key at all, and keys of several kinds. -/
def ragged : List RawRow :=
  [keys [.int32 (some 1)],
    keys [.int64 (some 1), .text (some "a"), .date none, .boolean none],
    keys [.int32 (some 1), .boolean none, .int64 (some 4)], keys [],
    keys [.int64 (some 1), .text (some "a"), .date (some "b")]]

/-- An exercise with only a key. -/
def keyed (key : Scalar) (records : List Record) : Record :=
  ⟨exercises, [("id", key)], [("questions", records)]⟩

/-- A question without a label. -/
def unnamed (key : Scalar) (records : List Record) : Record :=
  ⟨questions, [("id", key), ("label", .text none)], [("responses", records)]⟩

/-- The exercises of these rows. -/
def raggedForest : List Record :=
  [keyed (.int32 (some 1)) [unnamed (.int32 (some 1)) [⟨responses, [("id", .int32 (some 1))], []⟩]],
    keyed (.int64 (some 1))
      [unnamed (.text (some "a")) [⟨responses, [("id", .date (some "b"))], []⟩]],
    ⟨exercises, [], [("questions", [])]⟩]

end Survey

/-- Ragged rows: keys of several kinds, NULL or not there. -/
theorem wellFormed_of_assemble_survey :
    assemble Survey.exercises Survey.joins Survey.ragged = .ok Survey.raggedForest ∧
      (∀ r ∈ Survey.raggedForest, r.WellFormed ⟨Survey.exercises, Survey.joins⟩) ∧
        KeysApart Survey.raggedForest := by
  have hrun : assemble Survey.exercises Survey.joins Survey.ragged = .ok Survey.raggedForest := by
    cbv
  exact ⟨hrun, wellFormed_of_assemble hrun⟩

end QueryForest
