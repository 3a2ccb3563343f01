import Mathlib.Data.List.Permutation
import QueryForest.Proofs.Forest.Grouping

namespace QueryForest

/-!
# Assembly is grouping

The assembly of a forest goes through the rows once for the roots and once more for each relation.
All that these passes leave behind is determined by the rows seen so far: the pass over the roots
has one root for each group of them, and the pass for a relation has filled its slot from them.

* `Layout.groupAt`, `Layout.ownerOf` — the rows of the root at an index, and the index of the root
  of a row, by the rows seen so far; `Layout.groupAt_concat` ties them together;
* `Layout.addRoots_grouped`, `Layout.attachRows_grouped` — one pass;
* `assemble_eq` — the assembly makes the reads of `Layout.probeForest`, and the result is the
  forest of the groups.
-/

namespace Layout

variable (layout : Layout)

/-! ### Roots by the rows seen so far -/

/-- The groups of rows of the roots. -/
def rootGroups (rows : List RawRow) : List (List RawRow) :=
  groupsBy (layout.key? layout.root) rows

/-- The rows of the root at an index. -/
def groupAt (rows : List RawRow) (i : Nat) : List RawRow :=
  ((layout.rootGroups rows)[i]?).getD []

/-- The earlier rows of the root of a row. -/
def sharingRoot (row : RawRow) (earlier : List RawRow) : List RawRow :=
  earlier.filter (sameKey (layout.key? layout.root) row)

/-- The index of the root of a row: of the root with its key, or behind all others. -/
def ownerOf (earlier : List RawRow) (row : RawRow) : Nat :=
  ((layout.rootGroups earlier).findIdx? (isAbout (layout.key? layout.root) row)).getD
    (layout.rootGroups earlier).length

/-- The indices of the roots of several rows. -/
def owners (earlier : List RawRow) : List RawRow → List Nat
  | [] => []
  | row :: rest => layout.ownerOf earlier row :: owners (earlier ++ [row]) rest

/-! ### Reads -/

/-- The reads that a row needs for its root: the key, and the fields for the first row of a root. -/
def probeRoot (row : RawRow) (earlier : List RawRow) : Except ResolutionError Unit := do
  let _ ← layout.value row layout.root layout.root.model.primaryKey
  if (layout.sharingRoot row earlier).isEmpty then layout.check layout.root row

/-- The reads for the roots of several rows, behind the `earlier` ones. -/
def probeRoots (earlier : List RawRow) : List RawRow → Except ResolutionError Unit
  | [] => .ok ()
  | row :: rest => do
    layout.probeRoot row earlier
    probeRoots (earlier ++ [row]) rest

/-- The reads for one relation of several rows, behind the `earlier` ones. -/
def probeRows (node : Node) (earlier : List RawRow) : List RawRow → Except ResolutionError Unit
  | [] => .ok ()
  | row :: rest => do
    layout.probe row (layout.sharingRoot row earlier) node
    probeRows node (earlier ++ [row]) rest

/-- The reads for several relations, one after the other. -/
def probeRelations (rows : List RawRow) : List Node → Except ResolutionError Unit
  | [] => .ok ()
  | node :: rest => do
    layout.probeRows node [] rows
    probeRelations rows rest

/-- All reads of an assembly, in their order. -/
def probeForest (rows : List RawRow) : Except ResolutionError Unit := do
  layout.probeRoots [] rows
  layout.probeRelations rows layout.root.nested

variable {layout}

/-! ### One more row -/

/-- **One more row** goes to the end of the rows of its root, and no others change. -/
theorem groupAt_concat (rows : List RawRow) (row : RawRow) (i : Nat) :
    layout.groupAt (rows ++ [row]) i =
      if i = layout.ownerOf rows row then layout.groupAt rows i ++ [row]
      else layout.groupAt rows i := by
  unfold groupAt ownerOf rootGroups
  rcases groupsBy_concat (layout.key? layout.root) rows row with
    ⟨j, hj, hget, -, heq⟩ | ⟨hj, -, heq⟩
  · rw [heq, hj, Option.getD_some, List.getElem?_set]
    -- the row goes to the root that is there
    have hlt := (List.getElem?_eq_some_iff.1 hget).1
    by_cases hij : i = j
    · rw [hij, if_pos rfl, if_pos rfl, if_pos hlt, hget]
      rfl
    · rw [if_neg (Ne.symm hij), if_neg hij]
  · rw [heq, hj, Option.getD_none]
    -- the row starts a root behind the others
    by_cases hi : i = (groupsBy (layout.key? layout.root) rows).length
    · rw [hi, if_pos rfl, List.getElem?_concat_length, List.getElem?_eq_none (Nat.le_refl _)]
      rfl
    · rw [if_neg hi, List.getElem?_append]
      split
      · rfl
      · rw [List.getElem?_eq_none (by simp; omega), List.getElem?_eq_none (by omega)]

/-- The rows of the root of a row are the earlier rows with its key. -/
theorem groupAt_ownerOf (rows : List RawRow) (row : RawRow) :
    layout.groupAt rows (layout.ownerOf rows row) = layout.sharingRoot row rows := by
  unfold groupAt ownerOf rootGroups sharingRoot
  rcases groupsBy_concat (layout.key? layout.root) rows row with
    ⟨j, hj, hget, -, -⟩ | ⟨hj, hnil, -⟩
  · rw [hj, Option.getD_some, hget]
    rfl
  · rw [hj, Option.getD_none, List.getElem?_eq_none (Nat.le_refl _), hnil]
    rfl

/-- The root of a row is there once the row is. -/
theorem ownerOf_lt (rows : List RawRow) (row : RawRow) :
    layout.ownerOf rows row < (layout.rootGroups (rows ++ [row])).length := by
  unfold ownerOf rootGroups
  rcases groupsBy_concat (layout.key? layout.root) rows row with
    ⟨j, hj, hget, -, heq⟩ | ⟨hj, -, heq⟩
  · rw [heq, hj, Option.getD_some, List.length_set]
    exact (List.getElem?_eq_some_iff.1 hget).1
  · rw [heq, hj, Option.getD_none, List.length_append]
    exact Nat.lt_succ_self _

/-- One more row does not lessen the number of roots. -/
theorem length_rootGroups_concat (rows : List RawRow) (row : RawRow) :
    (layout.rootGroups rows).length ≤ (layout.rootGroups (rows ++ [row])).length := by
  unfold rootGroups
  rcases groupsBy_concat (layout.key? layout.root) rows row with
    ⟨j, -, -, -, heq⟩ | ⟨-, -, heq⟩
  · have hlen := congrArg List.length heq
    rw [List.length_set] at hlen
    omega
  · have hlen := congrArg List.length heq
    rw [List.length_append] at hlen
    omega

/-- More rows do not lessen the number of roots. -/
theorem length_rootGroups_append (layout : Layout) (rows more : List RawRow) :
    (layout.rootGroups rows).length ≤ (layout.rootGroups (rows ++ more)).length := by
  induction more generalizing rows with
  | nil => simp
  | cons row more ih =>
    rw [List.append_cons]
    exact Nat.le_trans (length_rootGroups_concat rows row) (ih _)

/-! ### The pass over the roots -/

/-- The root for a group of rows before any relation is entered. -/
def bareRoot (layout : Layout) (rows : List RawRow) : Record :=
  ⟨layout.root.model, (layout.grouped layout.root rows).values,
    layout.groupedSlots layout.root.nested []⟩

/-- The root for a group has the fields of the first row, and empty slots. -/
theorem bareRoot_eq {rows : List RawRow} {first : RawRow} (h : rows.head? = some first) :
    layout.bareRoot rows = ⟨layout.root.model, layout.fieldsOf layout.root first,
      layout.groupedSlots layout.root.nested []⟩ := by
  unfold bareRoot
  rw [grouped_values h]

/-- A root has its key from the start. -/
theorem hasKey_bareRoot (key : Scalar) (rows : List RawRow) :
    (layout.bareRoot rows).hasKey key = (layout.grouped layout.root rows).hasKey key := by
  unfold bareRoot Record.hasKey Record.primaryKey? Record.get?
  rw [grouped_model]

/-- Among the roots of groups, a search for the key of a row finds the group about it. -/
theorem findIdx?_root {row : RawRow} {found : Option Scalar}
    (h : layout.value row layout.root layout.root.model.primaryKey = .ok found)
    (rows : List RawRow) :
    (found.bind fun key => ((layout.rootGroups rows).map layout.bareRoot).findIdx?
      (Record.hasKey key)) =
      (layout.rootGroups rows).findIdx? (isAbout (layout.key? layout.root) row) := by
  have hreading := reading_of_value h
  cases found with
  | none =>
    -- a row without the key is about no root
    have hkey : layout.key? layout.root row = none := by
      unfold key?
      rw [hreading, ite_self]
    refine (List.findIdx?_eq_none_iff.2 fun group _ => ?_).symm
    unfold isAbout
    cases group.head? with
    | none => rfl
    | some first => simp [sameKey, hkey]
  | some key =>
    rw [Option.bind_some]
    unfold rootGroups
    rw [← findIdx?_hasKey hreading fun group hgroup => ne_nil_of_mem_groupsBy hgroup,
      List.findIdx?_map, List.findIdx?_map]
    exact findIdx?_congr fun group _ => hasKey_bareRoot key group

/-- Entering a row among the roots makes its reads, and leaves the roots of all the rows. -/
theorem addRoot_grouped (hsiblings : (layout.root.nested.map (·.model.table)).Nodup)
    (earlier : List RawRow) (row : RawRow) :
    layout.addRoot ((layout.rootGroups earlier).map layout.bareRoot) row =
      (layout.probeRoot row earlier).map fun _ =>
        ((layout.rootGroups (earlier ++ [row])).map layout.bareRoot,
          layout.ownerOf earlier row) := by
  unfold addRoot probeRoot
  cases hvalue : layout.value row layout.root layout.root.model.primaryKey with
  | error e => rfl
  | ok found =>
    -- the search among the roots is the search among the groups
    simp only [bind, Except.bind]
    rw [findIdx?_root hvalue]
    have howner : layout.ownerOf earlier row =
        ((layout.rootGroups earlier).findIdx? (isAbout (layout.key? layout.root) row)).getD
          (layout.rootGroups earlier).length := rfl
    have hsharing : layout.sharingRoot row earlier =
        earlier.filter (sameKey (layout.key? layout.root) row) := rfl
    rw [howner, hsharing]
    unfold rootGroups
    rcases groupsBy_concat (layout.key? layout.root) earlier row with
      ⟨i, hi, hget, hne, heq⟩ | ⟨hi, hnil, heq⟩
    · -- the root is there, and keeps the fields of its first row
      obtain ⟨first, rest, hcons⟩ := List.exists_cons_of_ne_nil hne
      rw [hi, hcons, List.isEmpty_cons, heq, List.map_set, hcons, List.cons_append,
        bareRoot_eq (List.head?_cons (l := rest ++ [row]))]
      have hsame : ((groupsBy (layout.key? layout.root) earlier).map layout.bareRoot).set i
          ⟨layout.root.model, layout.fieldsOf layout.root first,
            layout.groupedSlots layout.root.nested []⟩ =
          (groupsBy (layout.key? layout.root) earlier).map layout.bareRoot := by
        obtain ⟨hlt, hi'⟩ := List.getElem?_eq_some_iff.1 hget
        rw [← bareRoot_eq (List.head?_cons (l := rest)), ← hcons, ← hi', ← List.map_set,
          List.set_getElem_self]
      rw [hsame]
      rfl
    · -- the row starts a root
      rw [hi, hnil, heq, record_grouped _ _ hsiblings, List.map_append, List.length_map]
      simp only [List.isEmpty_nil, if_true, Option.getD_none, List.map_cons, List.map_nil,
        bareRoot_eq (List.head?_cons (a := row) (l := []))]
      cases layout.check layout.root row <;> rfl

/-- **The pass over the roots** makes the reads for the roots, and leaves one root for each group
of rows and the index of the root of each row. -/
theorem addRoots_grouped (hsiblings : (layout.root.nested.map (·.model.table)).Nodup)
    (earlier rows : List RawRow) :
    layout.addRoots ((layout.rootGroups earlier).map layout.bareRoot) rows =
      (layout.probeRoots earlier rows).map fun _ =>
        ((layout.rootGroups (earlier ++ rows)).map layout.bareRoot,
          layout.owners earlier rows) := by
  induction rows generalizing earlier with
  | nil => rw [List.append_nil]; rfl
  | cons row rest ih =>
    have hsplit : earlier ++ row :: rest = earlier ++ [row] ++ rest := by simp
    rw [addRoots, probeRoots, addRoot_grouped hsiblings, hsplit]
    cases layout.probeRoot row earlier with
    | error e => rfl
    | ok _ =>
      simp only [bind, Except.bind, Except.map]
      rw [ih]
      cases layout.probeRoots (earlier ++ [row]) rest <;> rfl

/-! ### The passes over the relations -/

/-- The roots for `rows` in the pass for `node`, when it has entered the rows `seen`: the passes
for `done` are over, and those for `todo` are to come. -/
def midway (layout : Layout) (done : List Node) (node : Node) (todo : List Node)
    (rows seen : List RawRow) : List Record :=
  (layout.rootGroups rows).mapIdx fun i group =>
    ⟨layout.root.model, (layout.grouped layout.root group).values,
      layout.groupedSlots done group ++ (node.model.table, layout.children node
        (layout.groupAt seen i)) :: layout.groupedSlots todo []⟩

/-- The roots for `rows` after the passes for `done`. -/
def passed (layout : Layout) (done todo : List Node) (rows : List RawRow) : List Record :=
  (layout.rootGroups rows).map fun group =>
    ⟨layout.root.model, (layout.grouped layout.root group).values,
      layout.groupedSlots done group ++ layout.groupedSlots todo []⟩

variable {done : List Node} {node : Node} {todo : List Node} {rows : List RawRow}

/-- Before its first row, the pass for a node has done what those before it have. -/
theorem midway_nil :
    layout.midway done node todo rows [] = layout.passed done (node :: todo) rows := by
  unfold midway passed
  rw [List.mapIdx_eq_iff]
  intro i
  rw [List.getElem?_map, groupedSlots_cons]
  rfl

/-- Behind its last row, the pass for a node is over. -/
theorem midway_all : layout.midway done node todo rows rows =
    layout.passed (done ++ [node]) todo rows := by
  unfold midway passed
  rw [List.mapIdx_eq_iff]
  intro i
  rw [List.getElem?_map]
  cases hget : (layout.rootGroups rows)[i]? with
  | none => rfl
  | some group =>
    have hgroup : layout.groupAt rows i = group := by
      unfold groupAt
      rw [hget]
      rfl
    simp [groupedSlots_eq_map, hgroup]

/-- Entering one more row into the root that owns it. -/
theorem attach_midway (hnode : (node.preorder.map (·.model.table)).Nodup)
    (hdone : node.model.table ∉ done.map (·.model.table)) {seen : List RawRow} {row : RawRow}
    (hlt : layout.ownerOf seen row < (layout.rootGroups rows).length) :
    modifyAt (fun root => layout.attach row root node) (layout.ownerOf seen row)
        (layout.midway done node todo rows seen) =
      (layout.probe row (layout.sharingRoot row seen) node).map fun _ =>
        layout.midway done node todo rows (seen ++ [row]) := by
  have hbefore : ∀ group, node.model.table ∉ (layout.groupedSlots done group).map Prod.fst := by
    intro group
    rw [groupedSlots_eq_map, List.map_map]
    exact hdone
  have hget : (layout.midway done node todo rows seen)[layout.ownerOf seen row]? =
      some ⟨layout.root.model,
        (layout.grouped layout.root ((layout.rootGroups rows)[layout.ownerOf seen row])).values,
        layout.groupedSlots done ((layout.rootGroups rows)[layout.ownerOf seen row]) ++
          (node.model.table, layout.children node (layout.sharingRoot row seen)) ::
            layout.groupedSlots todo []⟩ := by
    unfold midway
    rw [List.getElem?_mapIdx, List.getElem?_eq_getElem hlt, groupAt_ownerOf]
    rfl
  rw [modifyAt_eq _ hget, attach_grouped row node hnode _ _ _ (hbefore _)]
  cases layout.probe row (layout.sharingRoot row seen) node with
  | error e => rfl
  | ok _ =>
    show Except.ok _ = Except.ok _
    congr 1
    -- only the root that owns the row has more rows now
    refine List.ext_getElem? fun i => ?_
    unfold midway
    rw [List.getElem?_set, List.length_mapIdx, List.getElem?_mapIdx, List.getElem?_mapIdx,
      groupAt_concat]
    by_cases hi : layout.ownerOf seen row = i
    · rw [if_pos hi, if_pos hlt, ← hi, if_pos rfl, groupAt_ownerOf, List.getElem?_eq_getElem hlt]
      rfl
    · rw [if_neg hi, if_neg (Ne.symm hi)]

/-- **The pass for one relation** makes the reads for it, and fills its slot from all rows. -/
theorem attachRows_grouped (layout : Layout) (todo : List Node)
    (hnode : (node.preorder.map (·.model.table)).Nodup)
    (hdone : node.model.table ∉ done.map (·.model.table)) {seen pending : List RawRow}
    (hrows : seen ++ pending = rows) :
    layout.attachRows node (layout.midway done node todo rows seen)
        (pending.zip (layout.owners seen pending)) =
      (layout.probeRows node seen pending).map fun _ => layout.midway done node todo rows rows := by
  induction pending generalizing seen with
  | nil =>
    rw [List.append_nil] at hrows
    rw [hrows]
    rfl
  | cons row rest ih =>
    have hsplit : seen ++ [row] ++ rest = rows := by rw [← hrows]; simp
    -- the owner was found among the roots of the rows so far, and roots are never taken away
    have hlt : layout.ownerOf seen row < (layout.rootGroups rows).length := by
      have hle := length_rootGroups_append layout (seen ++ [row]) rest
      rw [hsplit] at hle
      exact Nat.lt_of_lt_of_le (ownerOf_lt seen row) hle
    rw [owners, List.zip_cons_cons, attachRows, probeRows, attach_midway hnode hdone hlt]
    cases layout.probe row (layout.sharingRoot row seen) node with
    | error e => rfl
    | ok _ => exact ih hsplit

/-- **The passes for the relations**, one after the other, fill all slots. -/
theorem attachRelations_grouped (layout : Layout) (done todo : List Node) (rows : List RawRow)
    (hnodes : ((done ++ Node.preorderAll todo).map (·.model.table)).Nodup) :
    layout.attachRelations (rows.zip (layout.owners [] rows)) (layout.passed done todo rows) todo =
      (layout.probeRelations rows todo).map fun _ => layout.passed (done ++ todo) [] rows := by
  induction todo generalizing done with
  | nil => rw [List.append_nil]; rfl
  | cons node rest ih =>
    rw [Node.preorderAll, ← List.append_assoc] at hnodes
    have hhere := (List.nodup_append.1 (List.map_append ▸ hnodes)).1
    rw [List.map_append, List.nodup_append] at hhere
    have hdone : node.model.table ∉ done.map (·.model.table) := fun hmem =>
      hhere.2.2 _ hmem _ (List.mem_map_of_mem node.mem_preorder_self) rfl
    -- the passes to come meet only the slot of `node`, not the tables below it
    have hrest : ((done ++ [node] ++ Node.preorderAll rest).map (·.model.table)).Nodup := by
      refine hnodes.sublist (List.Sublist.map _ ?_)
      refine List.Sublist.append (List.Sublist.append_left ?_ _) (List.Sublist.refl _)
      exact List.singleton_sublist.2 node.mem_preorder_self
    have hpass := attachRows_grouped layout rest hhere.2.1 hdone (List.nil_append rows)
    rw [midway_nil] at hpass
    rw [attachRelations, probeRelations, hpass]
    cases layout.probeRows node [] rows with
    | error e => rfl
    | ok _ =>
      have hthen := ih (done ++ [node]) hrest
      rw [List.append_assoc, List.singleton_append, ← midway_all] at hthen
      exact hthen

end Layout

/-- **Assembly is grouping.** The assembly of rows makes the reads of `Layout.probeForest`, and
the forest is the one of their groups. -/
theorem assemble_eq {base : Model} {joins : List Join} {layout : Layout}
    (h : Layout.ofJoins base joins = .ok layout) (rows : List RawRow) :
    assemble base joins rows = (layout.probeForest rows).map fun _ => layout.forest rows := by
  have hnodup := (Layout.wellNumbered_ofJoins h).nodup
  rw [Node.preorder_eq, List.map_cons, List.nodup_cons] at hnodup
  have hsiblings := hnodup.2.sublist
    ((Node.sublist_preorderAll layout.root.nested).map (·.model.table))
  have hroots := Layout.addRoots_grouped hsiblings [] rows
  have hrelations := Layout.attachRelations_grouped layout [] layout.root.nested rows hnodup.2
  unfold assemble
  rw [h]
  show ((layout.addRoots [] rows).bind fun found =>
    layout.attachRelations (rows.zip found.2) found.1 layout.root.nested) = _
  -- no rows have been entered, so there are no roots
  have hnone : (layout.rootGroups []).map layout.bareRoot = [] := rfl
  rw [hnone] at hroots
  rw [hroots]
  unfold Layout.probeForest
  cases layout.probeRoots [] rows with
  | error e => rfl
  | ok _ =>
    -- before the first relation all slots are open, and behind the last one all are filled
    have hpassed : layout.passed [] layout.root.nested rows =
        (layout.rootGroups rows).map layout.bareRoot := rfl
    have hforest : layout.passed layout.root.nested [] rows = layout.forest rows := by
      refine List.map_congr_left fun group hgroup => ?_
      obtain ⟨first, rest, rfl⟩ := List.exists_cons_of_ne_nil (ne_nil_of_mem_groupsBy hgroup)
      simp [Layout.groupedSlots_eq_map, Layout.grouped_eq layout.root (List.head?_cons (l := rest))]
    rw [hpassed, List.nil_append, hforest] at hrelations
    exact hrelations

/-- **A forest that was assembled is the forest of the groups.** Whatever the rows are, there is one
root for each key of the base table, and under each record one record for each key of a related
table that the rows of the parent have, in the order of arrival. -/
theorem eq_forest_of_assemble {base : Model} {joins : List Join} {rows : List RawRow}
    {records : List Record} (h : assemble base joins rows = .ok records) :
    ∃ layout, Layout.ofJoins base joins = .ok layout ∧ records = layout.forest rows := by
  obtain ⟨layout, hlayout, -⟩ := bind_eq_ok.1 h
  rw [assemble_eq hlayout] at h
  obtain ⟨_, -, hforest⟩ := map_eq_ok.1 h
  exact ⟨layout, hlayout, hforest.symm⟩

namespace Survey

/-- Exercises with their questions. -/
def exercises : Model := ⟨0, "exercises", "id", ["id", "title"], [⟨1, "exercises_id"⟩], [], []⟩

/-- Questions with their responses. -/
def questions : Model :=
  ⟨1, "questions", "id", ["id", "label", "exercises_id"], [⟨2, "questions_id"⟩], [],
    [⟨0, "exercises_id"⟩]⟩

/-- Responses to questions. -/
def responses : Model :=
  ⟨2, "responses", "id", ["id", "questions_id"], [], [], [⟨1, "questions_id"⟩]⟩

/-- A row of all three tables: keys of an exercise, of a question of it, and of a response. -/
def row (exercise question response : Option Int64) : RawRow :=
  Row.fetch .named ⟨[("id", .int64 exercise), ("title", .text (some "T")), ("id", .int64 question),
    ("label", .text (some "L")), ("exercises_id", .int64 exercise), ("id", .int64 response),
    ("questions_id", .int64 question)]⟩

/-- A response to a question. -/
def response (key question : Int64) : Record :=
  ⟨responses, [("id", .int64 (some key)), ("questions_id", .int64 (some question))], []⟩

/-- A question of an exercise. -/
def question (key exercise : Int64) (records : List Record) : Record :=
  ⟨questions, [("id", .int64 (some key)), ("label", .text (some "L")),
    ("exercises_id", .int64 (some exercise))], [("responses", records)]⟩

/-- An exercise. -/
def exercise (key : Int64) (records : List Record) : Record :=
  ⟨exercises, [("id", .int64 (some key)), ("title", .text (some "T"))], [("questions", records)]⟩

/-- Exercises with their questions, and those with their responses. -/
def joins : List Join := [⟨questions, [⟨responses, []⟩]⟩]

/-- The tables of the request, and its nodes. -/
def layout : Layout :=
  ⟨[exercises, questions, responses], ⟨exercises, 0, [⟨questions, 1, [⟨responses, 2, []⟩]⟩]⟩⟩

/-- Rows of two exercises that alternate, one row twice, with missing partners at both relations
and with a row that has a title only. -/
def arrivals : List RawRow :=
  [row (some 2) (some 5) (some 8), row (some 1) none none,
    Row.fetch .named ⟨[("title", .text (some "T"))]⟩, row (some 2) (some 6) none,
    row (some 2) (some 5) (some 9), row (some 2) (some 5) (some 8)]

/-- The exercises of these rows. -/
def collected : List Record :=
  [exercise 2 [question 5 2 [response 8 5, response 9 5], question 6 2 []], exercise 1 [],
    ⟨exercises, [("title", .text (some "T"))], [("questions", [])]⟩]

end Survey

/-- Rows of exercises in any order, with repeats and missing partners. -/
theorem eq_forest_of_assemble_survey :
    assemble Survey.exercises Survey.joins Survey.arrivals = .ok Survey.collected ∧
      ∃ layout, Layout.ofJoins Survey.exercises Survey.joins = .ok layout ∧
        Survey.collected = layout.forest Survey.arrivals := by
  have hrun : assemble Survey.exercises Survey.joins Survey.arrivals = .ok Survey.collected := by
    cbv
  exact ⟨hrun, eq_forest_of_assemble hrun⟩

end QueryForest
