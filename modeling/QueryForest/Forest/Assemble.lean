import QueryForest.Forest.Layout

namespace QueryForest

/-!
# Assembling forests

Joined rows repeat the row of the base table for every related row. `assemble` folds them back into
a forest: one root per distinct primary key of the base table, with a slot for each relation that
was asked for, and so on below.

* `Layout.roots` goes through the rows once, and gives the roots and the root of each row;
* `Layout.attach` enters what a row holds for one relation, and all relations below it, into a
  record;
* `assemble` enters all rows for the first relation, then all rows for the second, and so on.

Records are found by their keys: under one parent a key occurs once. A NULL key stands for a
relation without a partner, and nothing is entered for it.
-/

universe u v

/-- Replaces the element at an index by the result of a step that may fail. -/
def modifyAt {ε : Type u} {α : Type v} (step : α → Except ε α) :
    Nat → List α → Except ε (List α)
  | _, [] => .ok []
  | 0, a :: rest => (step a).map (· :: rest)
  | n + 1, a :: rest => (modifyAt step n rest).map (a :: ·)

namespace Layout

mutual

/-- Enters what a row holds for the relation `node`, and below it, into a record. -/
def attach (layout : Layout) (row : RawRow) (parent : Record) :
    Node → Except ResolutionError Record
  | ⟨model, position, nested⟩ => do
    let node : Node := ⟨model, position, nested⟩
    let parent := parent.ensureSlot model.table
    -- a NULL key or none: the row has no partner in this table
    match ← layout.value row node model.primaryKey with
    | none => .ok parent
    | some key =>
      if key.isNull then .ok parent
      else do
        let children := (parent.related? model.table).getD []
        match children.findIdx? (Record.hasKey key) with
        | some index => do
          let children ← modifyAt (fun child => layout.attachAll row child nested) index children
          .ok (parent.setSlot model.table children)
        | none => do
          let child ← layout.record row node
          let child ← layout.attachAll row child nested
          .ok (parent.setSlot model.table (children ++ [child]))

/-- Enters what a row holds for several relations, in order. -/
def attachAll (layout : Layout) (row : RawRow) (parent : Record) :
    List Node → Except ResolutionError Record
  | [] => .ok parent
  | node :: rest => do
    let parent ← layout.attach row parent node
    layout.attachAll row parent rest

end

/-- The root of a row among the roots so far, or a new root behind them. -/
def addRoot (layout : Layout) (roots : List Record) (row : RawRow) :
    Except ResolutionError (List Record × Nat) := do
  let key ← layout.value row layout.root layout.root.model.primaryKey
  match key.bind fun key => roots.findIdx? (Record.hasKey key) with
  | some index => .ok (roots, index)
  | none => do
    let record ← layout.record row layout.root
    .ok (roots ++ [record], roots.length)

/-- The roots in the order of their first rows, behind those so far, and the root of each row. -/
def addRoots (layout : Layout) (roots : List Record) :
    List RawRow → Except ResolutionError (List Record × List Nat)
  | [] => .ok (roots, [])
  | row :: rest => do
    let (roots, owner) ← layout.addRoot roots row
    let (roots, owners) ← layout.addRoots roots rest
    .ok (roots, owner :: owners)

/-- Enters all rows for one relation into the roots that own them. -/
def attachRows (layout : Layout) (node : Node) (roots : List Record) :
    List (RawRow × Nat) → Except ResolutionError (List Record)
  | [] => .ok roots
  | (row, owner) :: rest => do
    let roots ← modifyAt (fun root => layout.attach row root node) owner roots
    layout.attachRows node roots rest

/-- Enters all rows for several relations, one relation after the other. -/
def attachRelations (layout : Layout) (rows : List (RawRow × Nat)) (roots : List Record) :
    List Node → Except ResolutionError (List Record)
  | [] => .ok roots
  | node :: rest => do
    let roots ← layout.attachRows node roots rows
    layout.attachRelations rows roots rest

end Layout

/-- The forest of a list of rows, as asked for by `joins` on `base`. -/
def assemble (base : Model) (joins : List Join) (rows : List RawRow) :
    Except ResolutionError (List Record) := do
  let layout ← Layout.ofJoins base joins
  let (roots, owners) ← layout.addRoots [] rows
  layout.attachRelations (rows.zip owners) roots layout.root.nested

end QueryForest
