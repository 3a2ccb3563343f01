import QueryForest.Proofs.Forest.Assembly
import QueryForest.Proofs.Forest.Numbering

namespace QueryForest

/-!
# Tables by their positions

A node knows its model, so that an assembly can do without the list of the tables except for
counting occurrences. Here the assembly is written with positions alone: a table is what an index
finds in the list, the tables before it are a slice of the list, and whoever reaches outside of a
list ends the assembly for good. For a layout that was planned this never happens.

* `Node.requestAll_ofJoins` — the nodes of a request, without their positions, are the request;
* `Guarded` — computations that end where an index or a slice is out of range;
* `Layout.Seats` — the table at the position of a node is its own;
* `Layout.valueAt` to `assembleAt` — the assembly by positions, and for each step of it a lemma
  that it is the step of the assembly, as long as its nodes are seated;
* `assembleAt_eq` — the assembly by positions is the assembly, whatever is asked for;
* `numbering_agrees` — the plan and the nodes of a request agree, and every lookup of an assembly is
  in range.
-/

/-! ### The nodes of a request -/

namespace Node

mutual

/-- What was asked for with a node and those below it. -/
def request : Node → Join
  | ⟨model, _, nested⟩ => ⟨model, requestAll nested⟩

/-- What was asked for with several nodes. -/
def requestAll : List Node → List Join
  | [] => []
  | node :: rest => request node :: requestAll rest

end

mutual

/-- Numbering the nodes of a join leaves what was asked for. -/
theorem request_ofJoin (next : Nat) (join : Join) : (ofJoin next join).1.request = join := by
  match join with
  | ⟨model, nested⟩ =>
    rw [ofJoin, request, requestAll_ofJoins]

/-- Numbering the nodes leaves their models, and what is below what, as they were asked for. -/
theorem requestAll_ofJoins (next : Nat) (joins : List Join) :
    requestAll (ofJoins next joins).1 = joins := by
  match joins with
  | [] => rw [ofJoins, requestAll]
  | join :: rest =>
    rw [ofJoins, requestAll, request_ofJoin, requestAll_ofJoins]

end

end Node

/-! ### Computations that may reach outside of a list -/

/-- A computation that ends without any outcome where it reaches outside of a list, and may report
an error otherwise. -/
abbrev Guarded (α : Type) := ExceptT ResolutionError Option α

namespace Guarded

variable {α β : Type}

/-- A computation that never reaches outside of a list. -/
def safe (x : Except ResolutionError α) : Guarded α := ExceptT.mk (some x)

/-- The element at an index. -/
def index (l : List α) (i : Nat) : Guarded α := ExceptT.lift l[i]?

/-- The elements before an index. -/
def before (l : List α) (i : Nat) : Guarded (List α) :=
  if i ≤ l.length then pure (l.take i) else ExceptT.lift none

/-- Changes the element at an index. -/
def change (step : α → Guarded α) (i : Nat) (l : List α) : Guarded (List α) := do
  let a ← index l i
  let b ← step a
  pure (l.set i b)

/-- Steps that never reach outside of a list make a chain that never does. -/
theorem safe_bind {x : Except ResolutionError α} {f : α → Except ResolutionError β}
    {g : α → Guarded β} (h : ∀ a, x = .ok a → g a = safe (f a)) :
    (safe x >>= g) = safe (x >>= f) := by
  cases x with
  | error e => rfl
  | ok a => exact h a rfl

/-- An element that is there is found. -/
theorem index_of_some {l : List α} {i : Nat} {a : α} (h : l[i]? = some a) :
    index l i = pure a := by
  rw [index, h]
  rfl

/-- The elements before an index that is not behind the end. -/
theorem before_of_le {l : List α} {i : Nat} (h : i ≤ l.length) : before l i = pure (l.take i) :=
  if_pos h

/-- Changing an element that is there is never out of range. -/
theorem change_eq {step : α → Except ResolutionError α} {guarded : α → Guarded α} {i : Nat}
    {l : List α} (hi : i < l.length) (h : ∀ a ∈ l, guarded a = safe (step a)) :
    change guarded i l = safe (modifyAt step i l) := by
  have hget : l[i]? = some l[i] := List.getElem?_eq_getElem hi
  rw [change, index_of_some hget, modifyAt_eq step hget, pure_bind, h _ (List.getElem_mem hi)]
  cases step l[i] <;> rfl

/-- Nor is changing the element that was put behind the others. -/
theorem change_concat (step : α → Except ResolutionError α) {guarded : α → Guarded α} {l : List α}
    {a : α} (h : guarded a = safe (step a)) :
    change guarded l.length (l ++ [a]) = safe ((step a).map fun b => l ++ [b]) := by
  rw [change, index_of_some List.getElem?_concat_length, pure_bind, h]
  cases step a with
  | error e => rfl
  | ok b =>
    have hset : (l ++ [a]).set l.length b = l ++ [b] := by simp
    exact congrArg (pure : List α → Guarded (List α)) hset

end Guarded

open Guarded (safe safe_bind)

namespace Layout

/-! ### Assembly by positions -/

/-- The value of a column for the table at a position. -/
def valueAt (layout : Layout) (row : RawRow) (position : Nat) (column : String) :
    Guarded (Option Scalar) :=
  match row.get? column with
  | none => pure none
  | some (.scalar value) => pure (some value)
  | some (.perOccurrence values) => do
    let before ← Guarded.before layout.tables position
    let index := before.countP (·.declares column)
    match values[index]? with
    | some value => pure (some value)
    | none => do
      let model ← Guarded.index layout.tables position
      throw (.missingOccurrence column model.table index values.length)

/-- The values that a row has for some fields of the table at a position. -/
def valuesAt (layout : Layout) (row : RawRow) (position : Nat) :
    List String → Guarded (List (String × Scalar))
  | [] => pure []
  | field :: rest => do
    let found ← layout.valueAt row position field
    let others ← layout.valuesAt row position rest
    match found with
    | some value => pure ((field, value) :: others)
    | none => pure others

/-- The record that a row has for the table at a position, with slots for some nodes. -/
def recordAt (layout : Layout) (row : RawRow) (position : Nat) (nested : List Node) :
    Guarded Record := do
  let model ← Guarded.index layout.tables position
  let values ← layout.valuesAt row position model.fields
  let record := ((RecordBuilder.ofModel model).setAll values).build
  pure (nested.foldl (fun r below => r.ensureSlot below.model.table) record)

mutual

/-- Enters what a row holds for a node, and below it, into a record. -/
def attachAt (layout : Layout) (row : RawRow) (parent : Record) : Node → Guarded Record
  | ⟨model, position, nested⟩ => do
    let parent := parent.ensureSlot model.table
    match ← layout.valueAt row position model.primaryKey with
    | none => pure parent
    | some key =>
      if key.isNull then pure parent
      else do
        let children := (parent.related? model.table).getD []
        let (children, index) ← match children.findIdx? (Record.hasKey key) with
          | some index => pure (children, index)
          | none => do
            let child ← layout.recordAt row position nested
            pure (children ++ [child], children.length)
        let children ← Guarded.change (fun child => layout.attachAllAt row child nested) index
          children
        pure (parent.setSlot model.table children)

/-- Enters what a row holds for several nodes, in order. -/
def attachAllAt (layout : Layout) (row : RawRow) (parent : Record) : List Node → Guarded Record
  | [] => pure parent
  | node :: rest => do
    let parent ← layout.attachAt row parent node
    layout.attachAllAt row parent rest

end

/-- The root of a row among the roots so far, or a new root behind them, for the table in front. -/
def addRootAt (layout : Layout) (roots : List Record) (row : RawRow) :
    Guarded (List Record × Nat) := do
  let key ← layout.valueAt row 0 layout.root.model.primaryKey
  match key.bind fun key => roots.findIdx? (Record.hasKey key) with
  | some index => pure (roots, index)
  | none => do
    let record ← layout.recordAt row 0 layout.root.nested
    pure (roots ++ [record], roots.length)

/-- The roots in the order of their first rows, behind those so far, and the root of each row. -/
def addRootsAt (layout : Layout) (roots : List Record) :
    List RawRow → Guarded (List Record × List Nat)
  | [] => pure (roots, [])
  | row :: rest => do
    let (roots, owner) ← layout.addRootAt roots row
    let (roots, owners) ← layout.addRootsAt roots rest
    pure (roots, owner :: owners)

/-- Enters all rows for one relation into the roots at the indices that own them. -/
def attachRowsAt (layout : Layout) (node : Node) (roots : List Record) :
    List (RawRow × Nat) → Guarded (List Record)
  | [] => pure roots
  | (row, owner) :: rest => do
    let roots ← Guarded.change (fun root => layout.attachAt row root node) owner roots
    layout.attachRowsAt node roots rest

/-- Enters all rows for several relations, one relation after the other. -/
def attachRelationsAt (layout : Layout) (rows : List (RawRow × Nat)) (roots : List Record) :
    List Node → Guarded (List Record)
  | [] => pure roots
  | node :: rest => do
    let roots ← layout.attachRowsAt node roots rows
    layout.attachRelationsAt rows roots rest

end Layout

/-- The forest of a list of rows, with all tables found by their positions. -/
def assembleAt (base : Model) (joins : List Join) (rows : List RawRow) :
    Guarded (List Record) := do
  let layout ← safe (Layout.ofJoins base joins)
  let (roots, owners) ← layout.addRootsAt [] rows
  layout.attachRelationsAt (rows.zip owners) roots layout.root.nested

namespace Layout

/-! ### Nodes at their positions -/

/-- The table at the position of a node is the one of its model. -/
def Seats (layout : Layout) (node : Node) : Prop :=
  layout.tables[node.position]? = some node.model

variable {layout : Layout} {node : Node}

/-- A seated node finds its values by its position. -/
theorem valueAt_eq (h : layout.Seats node) (row : RawRow) (column : String) :
    layout.valueAt row node.position column = safe (layout.value row node column) := by
  have hlt : node.position < layout.tables.length := (List.getElem?_eq_some_iff.1 h).1
  unfold valueAt value
  cases row.get? column with
  | none => rfl
  | some found =>
    cases found with
    | scalar value => rfl
    | perOccurrence values =>
      -- the slice ends in front of a table that is there, and the error names that table
      simp only [Guarded.before_of_le (Nat.le_of_lt hlt), pure_bind, occurrence,
        Guarded.index_of_some h]
      cases values[(layout.tables.take node.position).countP (·.declares column)]? <;> rfl

/-- A seated node finds the values of its fields by its position. -/
theorem valuesAt_eq (h : layout.Seats node) (row : RawRow) (fields : List String) :
    layout.valuesAt row node.position fields = safe (layout.values row node fields) := by
  induction fields with
  | nil => rfl
  | cons field rest ih =>
    rw [valuesAt, values, valueAt_eq h, ih]
    refine safe_bind fun found _ => safe_bind fun others _ => ?_
    cases found <;> rfl

/-- A seated node finds its record by its position. -/
theorem recordAt_eq (h : layout.Seats node) (row : RawRow) :
    layout.recordAt row node.position node.nested = safe (layout.record row node) := by
  rw [recordAt, record, Guarded.index_of_some h, pure_bind, valuesAt_eq h]
  exact safe_bind fun values _ => rfl

/-- A table that is not there ends the assembly. -/
example : (⟨[Survey.exercises], ⟨Survey.exercises, 0, []⟩⟩ : Layout).recordAt NameMap.empty 1 [] =
    ExceptT.lift none := rfl

mutual

/-- Entering a row for a node is never out of range, if it and all below it are seated. -/
theorem attachAt_eq (node : Node) (h : ∀ below ∈ node.preorder, layout.Seats below)
    (row : RawRow) (parent : Record) :
    layout.attachAt row parent node = safe (layout.attach row parent node) := by
  match node with
  | ⟨model, position, nested⟩ =>
    have hhere : layout.Seats ⟨model, position, nested⟩ := h _ (Node.mem_preorder_self _)
    have hbelow : ∀ child : Record, layout.attachAllAt row child nested =
        safe (layout.attachAll row child nested) :=
      attachAllAt_eq nested (fun below hmem => h below (Node.mem_preorder_of_nested hmem)) row
    have hvalue := valueAt_eq hhere row model.primaryKey
    have hrecord := recordAt_eq hhere row
    rw [attachAt, attach]
    simp only at hvalue hrecord ⊢
    rw [hvalue]
    refine safe_bind fun found _ => ?_
    cases found with
    | none => rfl
    | some key =>
      simp only
      split
      · rfl
      · generalize ((parent.ensureSlot model.table).related? model.table).getD [] = children
        cases hfind : children.findIdx? (Record.hasKey key) with
        | some index =>
          -- the record is one of the children
          have hlt := (List.findIdx?_eq_some_iff_getElem.1 hfind).1
          simp only [pure_bind]
          rw [Guarded.change_eq hlt fun child _ => hbelow child]
          exact safe_bind fun children _ => rfl
        | none =>
          -- the record is new, and stands behind the children when it is looked up again
          simp only [pure_bind]
          rw [hrecord]
          refine safe_bind fun child _ => ?_
          rw [Guarded.change_concat (fun child => layout.attachAll row child nested) (hbelow child)]
          cases layout.attachAll row child nested <;> rfl

/-- Entering a row for several nodes is never out of range, if all of them are seated. -/
theorem attachAllAt_eq (nodes : List Node)
    (h : ∀ below ∈ Node.preorderAll nodes, layout.Seats below) (row : RawRow) (parent : Record) :
    layout.attachAllAt row parent nodes = safe (layout.attachAll row parent nodes) := by
  match nodes with
  | [] => rw [attachAllAt, attachAll]; rfl
  | node :: rest =>
    rw [Node.preorderAll] at h
    rw [attachAllAt, attachAll,
      attachAt_eq node (fun below hmem => h below (List.mem_append_left _ hmem)) row]
    exact safe_bind fun parent _ =>
      attachAllAt_eq rest (fun below hmem => h below (List.mem_append_right _ hmem)) row parent

end

/-! ### Roots at their indices -/

/-- The root of a row is found by the position 0. -/
theorem addRootAt_eq (h : layout.Seats layout.root) (hroot : layout.root.position = 0)
    (roots : List Record) (row : RawRow) :
    layout.addRootAt roots row = safe (layout.addRoot roots row) := by
  have hvalue := valueAt_eq h row layout.root.model.primaryKey
  have hrecord := recordAt_eq h row
  -- the base table is the first one
  rw [hroot] at hvalue hrecord
  rw [addRootAt, addRoot, hvalue]
  refine safe_bind fun key _ => ?_
  cases key.bind fun key => roots.findIdx? (Record.hasKey key) with
  | some index => rfl
  | none =>
    simp only [hrecord]
    exact safe_bind fun record _ => rfl

/-- So are the roots of several rows. -/
theorem addRootsAt_eq (h : layout.Seats layout.root) (hroot : layout.root.position = 0)
    (roots : List Record) (rows : List RawRow) :
    layout.addRootsAt roots rows = safe (layout.addRoots roots rows) := by
  induction rows generalizing roots with
  | nil => rfl
  | cons row rest ih =>
    rw [addRootsAt, addRoots, addRootAt_eq h hroot]
    refine safe_bind fun found _ => ?_
    obtain ⟨roots, owner⟩ := found
    simp only [ih]
    exact safe_bind fun others _ => rfl

/-- The index of the root of a row is that of a root. -/
theorem addRoot_bounds {roots roots' : List Record} {owner : Nat}
    (h : layout.addRoot roots row = .ok (roots', owner)) :
    roots.length ≤ roots'.length ∧ owner < roots'.length := by
  rw [addRoot] at h
  obtain ⟨key, -, h⟩ := bind_eq_ok.1 h
  cases hfind : key.bind fun key => roots.findIdx? (Record.hasKey key) with
  | some index =>
    rw [hfind] at h
    cases h
    obtain ⟨key, -, hindex⟩ := Option.bind_eq_some_iff.1 hfind
    exact ⟨Nat.le_refl _, (List.findIdx?_eq_some_iff_getElem.1 hindex).1⟩
  | none =>
    rw [hfind] at h
    obtain ⟨record, -, h⟩ := bind_eq_ok.1 h
    cases h
    simp

/-- Roots are only added, so that the indices of the roots of all rows are those of roots. -/
theorem addRoots_bounds {rows : List RawRow} {roots roots' : List Record} {owners : List Nat}
    (h : layout.addRoots roots rows = .ok (roots', owners)) :
    roots.length ≤ roots'.length ∧ ∀ owner ∈ owners, owner < roots'.length := by
  induction rows generalizing roots owners with
  | nil =>
    cases h
    exact ⟨Nat.le_refl _, by simp⟩
  | cons row rest ih =>
    rw [addRoots] at h
    obtain ⟨⟨first, owner⟩, hfirst, h⟩ := bind_eq_ok.1 h
    obtain ⟨⟨all, others⟩, hall, h⟩ := bind_eq_ok.1 h
    cases h
    obtain ⟨hle, hlt⟩ := addRoot_bounds hfirst
    obtain ⟨hle', hothers⟩ := ih hall
    refine ⟨Nat.le_trans hle hle', fun i hi => ?_⟩
    rcases List.mem_cons.1 hi with rfl | hi
    · exact Nat.lt_of_lt_of_le hlt hle'
    · exact hothers i hi

/-- Entering rows for one relation is never out of range, if their owners are roots. -/
theorem attachRowsAt_eq (h : ∀ below ∈ node.preorder, layout.Seats below)
    {rows : List (RawRow × Nat)} {roots : List Record} (hrows : ∀ r ∈ rows, r.2 < roots.length) :
    layout.attachRowsAt node roots rows = safe (layout.attachRows node roots rows) := by
  induction rows generalizing roots with
  | nil => rfl
  | cons r rest ih =>
    obtain ⟨row, owner⟩ := r
    have howner : owner < roots.length := hrows _ List.mem_cons_self
    rw [attachRowsAt, attachRows, Guarded.change_eq howner fun root _ => attachAt_eq node h row root]
    -- there are as many roots behind a row as in front of it
    refine safe_bind fun roots' hroots' => ih fun r hr => ?_
    rw [length_modifyAt hroots']
    exact hrows r (List.mem_cons_of_mem _ hr)

/-- Entering rows neither adds nor removes a root. -/
theorem length_attachRows {rows : List (RawRow × Nat)} {roots roots' : List Record}
    (h : layout.attachRows node roots rows = .ok roots') : roots'.length = roots.length := by
  induction rows generalizing roots with
  | nil =>
    cases h
    rfl
  | cons r rest ih =>
    rw [attachRows] at h
    obtain ⟨found, hfound, h⟩ := bind_eq_ok.1 h
    rw [ih h, length_modifyAt hfound]

/-- Entering rows for several relations is never out of range. -/
theorem attachRelationsAt_eq {nodes : List Node}
    (h : ∀ below ∈ Node.preorderAll nodes, layout.Seats below) {rows : List (RawRow × Nat)}
    {roots : List Record} (hrows : ∀ r ∈ rows, r.2 < roots.length) :
    layout.attachRelationsAt rows roots nodes = safe (layout.attachRelations rows roots nodes) := by
  induction nodes generalizing roots with
  | nil => rfl
  | cons node rest ih =>
    rw [Node.preorderAll] at h
    rw [attachRelationsAt, attachRelations,
      attachRowsAt_eq (fun below hmem => h below (List.mem_append_left _ hmem)) hrows]
    refine safe_bind fun roots' hroots' =>
      ih (fun below hmem => h below (List.mem_append_right _ hmem)) ?_
    rw [length_attachRows hroots']
    exact hrows

/-- The nodes of a layout that was planned are at the positions of their tables. -/
theorem seats_of_ofJoins {base : Model} {joins : List Join} (h : ofJoins base joins = .ok layout)
    {node : Node} (hnode : node ∈ layout.root.preorder) : layout.Seats node :=
  (wellNumbered_ofJoins h).tables_position hnode

end Layout

/-- **No index and no slice of an assembly is out of range.** The assembly that finds its tables,
its records and its roots by their positions has the outcome of the assembly, for any request and
any rows. -/
theorem assembleAt_eq (base : Model) (joins : List Join) (rows : List RawRow) :
    assembleAt base joins rows = safe (assemble base joins rows) := by
  unfold assembleAt assemble
  refine safe_bind fun layout hlayout => ?_
  have hseats : ∀ node ∈ layout.root.preorder, layout.Seats node := fun node =>
    Layout.seats_of_ofJoins hlayout
  have hroot : layout.root.position = 0 := by rw [Layout.root_ofJoins hlayout]
  rw [Layout.addRootsAt_eq (hseats _ layout.root.mem_preorder_self) hroot]
  refine safe_bind fun found hfound => ?_
  -- the rows are entered at the indices that the first pass has given them
  have howners : ∀ r ∈ rows.zip found.2, r.2 < found.1.length := by
    intro r hr
    exact (Layout.addRoots_bounds hfound).2 r.2 (List.of_mem_zip hr).2
  exact Layout.attachRelationsAt_eq
    (fun below hmem => hseats below (Node.mem_preorder_of_nested hmem)) howners

/-- The nodes of a layout number the joins of a plan: they are the nodes of the request, and in the
order of the plan they have its models and count up from the base table, which stands in front. -/
structure Layout.Numbers (layout : Layout) (base : Model) (joins : List Join)
    (planned : List PlannedJoin) : Prop where
  nodes_eq : layout.root.nested = (Node.ofJoins 1 joins).1
  request_eq : Node.requestAll layout.root.nested = joins
  models_eq : (Node.preorderAll layout.root.nested).map (·.model) = planned.map (·.model)
  positions_eq :
    (Node.preorderAll layout.root.nested).map (·.position) = List.range' 1 planned.length
  base_eq : layout.tables[0]? = some base
  seats : ∀ node ∈ Node.preorderAll layout.root.nested,
    layout.tables[node.position]? = some node.model

/-- **The numbering of the nodes agrees with the plan**, for every request that has a plan, and an
assembly for it finds all that it looks up by a position. -/
theorem numbering_agrees {base : Model} {joins : List Join} {planned : List PlannedJoin}
    (h : plan base joins = .ok planned) :
    ∃ layout, Layout.ofJoins base joins = .ok layout ∧ layout.Numbers base joins planned ∧
      ∀ rows, assembleAt base joins rows = safe (assemble base joins rows) := by
  have hlayout : Layout.ofJoins base joins =
      .ok ⟨base :: planned.map (·.model), ⟨base, 0, (Node.ofJoins 1 joins).1⟩⟩ := by
    rw [Layout.ofJoins, h]
    rfl
  -- the plan and the tree both are the requests in pre-order
  obtain ⟨hmodels, -⟩ := models_of_plan h
  rw [Join.models_requestsAll] at hmodels
  obtain ⟨hnodes, hpositions, -⟩ := Node.preorderAll_ofJoins 1 joins
  have hcount : planned.length = (Join.preorderAll joins).length := by
    rw [← hmodels, List.length_map]
  refine ⟨_, hlayout, ?_, assembleAt_eq base joins⟩
  constructor
  case nodes_eq => rfl
  case request_eq => exact Node.requestAll_ofJoins 1 joins
  case models_eq => exact hnodes.trans hmodels.symm
  case positions_eq => rw [hcount]; exact hpositions
  case base_eq => rfl
  case seats =>
    intro node hnode
    exact Layout.seats_of_ofJoins hlayout (Node.mem_preorder_of_nested hnode)

namespace Survey

/-- Exercises with their questions and a solution. -/
def solved : Model :=
  ⟨0, "exercises", "id", ["id", "title"], [⟨1, "exercises_id"⟩], [⟨3, "id"⟩], []⟩

/-- Solutions of exercises. -/
def solutions : Model := ⟨3, "solutions", "id", ["id", "text"], [], [], []⟩

/-- Questions with their responses, and the solution behind them. -/
def solvedJoins : List Join := [⟨questions, [⟨responses, []⟩]⟩, ⟨solutions, []⟩]

/-- The joins for this request. -/
def solvedPlan : List PlannedJoin :=
  [⟨questions, .hasMany, .left, ("exercises", "id"), ("questions", "exercises_id")⟩,
    ⟨responses, .hasMany, .left, ("questions", "id"), ("responses", "questions_id")⟩,
    ⟨solutions, .hasOne, .inner, ("exercises", "id"), ("solutions", "id")⟩]

end Survey

/-- Questions with their responses, in front of the solution. -/
theorem numbering_agrees_survey :
    plan Survey.solved Survey.solvedJoins = .ok Survey.solvedPlan ∧
      ∃ layout, Layout.ofJoins Survey.solved Survey.solvedJoins = .ok layout ∧
        layout.Numbers Survey.solved Survey.solvedJoins Survey.solvedPlan ∧
        ∀ rows, assembleAt Survey.solved Survey.solvedJoins rows =
          safe (assemble Survey.solved Survey.solvedJoins rows) := by
  have hplan : plan Survey.solved Survey.solvedJoins = .ok Survey.solvedPlan := rfl
  exact ⟨hplan, numbering_agrees hplan⟩

end QueryForest
