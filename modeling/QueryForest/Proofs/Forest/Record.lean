import QueryForest.Forest.Layout
import QueryForest.Proofs.Data.Step
import QueryForest.Proofs.Forest.Building

namespace QueryForest

/-!
# What a row holds for a table

Reading a record from a row can fail, but what is read does not depend on how the reading went:
every read is a check whose result is known beforehand.

* `Layout.reading` — the value of a column for a table, as far as the row has it;
* `Layout.hasPartner` — whether a row has a record in a table: a primary key that is not NULL;
* `Layout.fieldsOf` — the values of the declared fields, each name once, in declared order;
* `Layout.check` — whether all declared fields can be read, without the values;
* `Layout.record_eq` — reading a record is that check, and the record has these fields and an
  empty slot for each relation.
-/

/-! ### Slots -/

namespace Record

/-- The records of a record for a relation. -/
def under (r : Record) (node : Node) : List Record := (r.related? node.model.table).getD []

/-- An open slot stays as it is. -/
theorem ensureSlot_of_mem {r : Record} {slot : String} (h : slot ∈ r.slots.map Prod.fst) :
    r.ensureSlot slot = r := by
  unfold ensureSlot related?
  cases hget : Assoc.get? slot r.slots with
  | some _ => rfl
  | none => exact absurd h (Assoc.get?_eq_none_iff.1 hget)

variable {model : Model} {values : List (String × Scalar)} {slot : String}
  {before : List (String × List Record)}

/-- A slot in the middle is open, holds its records, and is written without touching the others. -/
theorem ensureSlot_middle (records : List Record) (after : List (String × List Record)) :
    (⟨model, values, before ++ (slot, records) :: after⟩ : Record).ensureSlot slot =
      ⟨model, values, before ++ (slot, records) :: after⟩ :=
  ensureSlot_of_mem (by simp)

/-- A slot between others is read. -/
theorem related?_middle (h : slot ∉ before.map Prod.fst) (records : List Record)
    (after : List (String × List Record)) :
    (⟨model, values, before ++ (slot, records) :: after⟩ : Record).related? slot = some records :=
  Assoc.get?_append_cons h records after

/-- A slot between others is replaced, and they stay. -/
theorem setSlot_middle (h : slot ∉ before.map Prod.fst) (records new : List Record)
    (after : List (String × List Record)) :
    (⟨model, values, before ++ (slot, records) :: after⟩ : Record).setSlot slot new =
      ⟨model, values, before ++ (slot, new) :: after⟩ := by
  unfold setSlot
  rw [Assoc.set_append_cons h]

/-- A new slot is opened behind the others. -/
theorem ensureSlot_of_not_mem {r : Record} {slot : String} (h : slot ∉ r.slots.map Prod.fst) :
    r.ensureSlot slot = { r with slots := r.slots ++ [(slot, [])] } := by
  unfold ensureSlot related?
  rw [Assoc.get?_eq_none_iff.2 h]

/-- Opening slots with names of their own opens them in order. -/
theorem foldl_ensureSlot (nodes : List Node) (r : Record)
    (h : (r.slots.map Prod.fst ++ nodes.map (·.model.table)).Nodup) :
    nodes.foldl (fun r node => r.ensureSlot node.model.table) r =
      { r with slots := r.slots ++ nodes.map fun node => (node.model.table, []) } := by
  induction nodes generalizing r with
  | nil => cases r; simp
  | cons node rest ih =>
    have hnot : node.model.table ∉ r.slots.map Prod.fst := by
      intro hmem
      exact (List.nodup_append.1 h).2.2 _ hmem _ (List.mem_map_of_mem List.mem_cons_self) rfl
    rw [List.foldl_cons, ensureSlot_of_not_mem hnot, ih]
    · simp
    · simpa [List.append_assoc] using h

end Record

/-! ### Reading a row -/

namespace Layout

variable (layout : Layout) (node : Node)

/-- The value of a column for the table of a node, as far as a row has it. -/
def reading (column : String) (row : RawRow) : Option Scalar :=
  match layout.value row node column with
  | .ok found => found
  | .error _ => none

/-- Whether a row has a partner in the table of a node: a primary key that is not NULL. -/
def hasPartner (row : RawRow) : Bool :=
  (layout.reading node node.model.primaryKey row).any fun key => !key.isNull

/-- The values that a row has for the declared fields of a node, in declared order. -/
def fieldsOf (row : RawRow) : List (String × Scalar) :=
  foundEntries (fun field => layout.reading node field row) node.model.fields

/-- Whether a row has all occurrences that the declared fields of a node need. -/
def check (row : RawRow) : Except ResolutionError Unit :=
  (layout.values row node node.model.fields).map fun _ => ()

variable {layout node}

/-- What is read is what a reading that succeeds gives. -/
theorem reading_of_value {row : RawRow} {column : String} {found : Option Scalar}
    (h : layout.value row node column = .ok found) : layout.reading node column row = found := by
  unfold reading
  rw [h]

/-- A row has a partner if its key is there and is not NULL. -/
theorem hasPartner_of_value {row : RawRow} {found : Option Scalar}
    (h : layout.value row node node.model.primaryKey = .ok found) :
    layout.hasPartner node row = found.any fun key => !key.isNull := by
  unfold hasPartner
  rw [reading_of_value h]

/-- The values that are read are those that are there, in the order of the fields. -/
theorem values_eq_of_ok {row : RawRow} {fields : List String} {found : List (String × Scalar)}
    (h : layout.values row node fields = .ok found) :
    found = fields.filterMap fun field => (layout.reading node field row).map (field, ·) := by
  induction fields generalizing found with
  | nil =>
    cases h
    rfl
  | cons field rest ih =>
    unfold values at h
    obtain ⟨value, hvalue, h⟩ := bind_eq_ok.1 h
    obtain ⟨others, hrest, h⟩ := bind_eq_ok.1 h
    rw [List.filterMap_cons, reading_of_value hvalue, ← ih hrest]
    cases value with
    | none => cases h; rfl
    | some v => cases h; rfl

/-- The declared fields can be read when each of them can. -/
theorem check_eq_ok_iff {row : RawRow} : layout.check node row = .ok () ↔
    ∀ field ∈ node.model.fields, ∃ found, layout.value row node field = .ok found := by
  unfold check
  induction node.model.fields with
  | nil => simp [values]; rfl
  | cons field rest ih =>
    rw [values, List.forall_mem_cons]
    cases hvalue : layout.value row node field with
    | error e =>
      refine ⟨fun h => (by cases h), fun h => ?_⟩
      obtain ⟨found, hfound⟩ := h.1
      cases hfound
    | ok value =>
      rw [← ih]
      cases layout.values row node rest with
      | error e => exact ⟨fun h => (by cases h), fun h => (by cases h.2)⟩
      | ok others => exact ⟨fun _ => ⟨⟨value, rfl⟩, rfl⟩, fun _ => by cases value <;> rfl⟩

variable (layout node)

/-- **Reading a record.** It succeeds when the declared fields can be read, and then has these
fields and an empty slot for each relation. -/
theorem record_eq (row : RawRow) (h : (node.nested.map (·.model.table)).Nodup) :
    layout.record row node = (layout.check node row).map fun _ =>
      ⟨node.model, layout.fieldsOf node row,
        node.nested.map fun below => (below.model.table, [])⟩ := by
  unfold record check
  cases hvalues : layout.values row node node.model.fields with
  | error e => rfl
  | ok found =>
    have hbuild : ((RecordBuilder.ofModel node.model).setAll found).build =
        ⟨node.model, layout.fieldsOf node row, []⟩ := by
      rw [values_eq_of_ok hvalues, RecordBuilder.build_setAll_eq]
      show (⟨_, foundEntries _ _, []⟩ : Record) = ⟨_, foundEntries _ _, []⟩
      rw [foundEntries_congr fun name hname => ?_]
      rw [Assoc.last?_found, if_pos hname]
    show Except.ok _ = Except.ok _
    rw [hbuild, Record.foldl_ensureSlot]
    · rfl
    · simpa using h

end Layout

end QueryForest
