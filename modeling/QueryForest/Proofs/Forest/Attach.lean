import QueryForest.Forest.Assemble
import QueryForest.Proofs.Forest.Record

namespace QueryForest

/-!
# Entering a row into a record

What entering a row for one relation can do, case by case. Everything about the assembly of forests
is derived from these cases.

* `Layout.attach_error` — the key cannot be read, and nothing is entered;
* `Layout.attach_absent` — the row has no partner, and the slot is opened;
* `Layout.attach_found` — a record of the slot has the key, and the row is entered below it;
* `Layout.attach_new` — no record has the key, and the record of the row goes behind the others.
-/

/-- Changing the element at an index that is there, by a step that may fail. -/
theorem modifyAt_eq {ε α : Type} (step : α → Except ε α) {i : Nat} {l : List α} {a : α}
    (h : l[i]? = some a) : modifyAt step i l = (step a).map fun b => l.set i b := by
  induction l generalizing i with
  | nil => cases h
  | cons c l ih =>
    cases i with
    | zero =>
      cases h
      rfl
    | succ i =>
      rw [modifyAt, ih h]
      cases step a <;> rfl

/-- Changing an element keeps the length. -/
theorem length_modifyAt {ε α : Type} {step : α → Except ε α} {i : Nat} {l l' : List α}
    (h : modifyAt step i l = .ok l') : l'.length = l.length := by
  induction l generalizing i l' with
  | nil =>
    rw [modifyAt] at h
    rw [← Except.ok.inj h]
  | cons a l ih =>
    cases i with
    | zero =>
      obtain ⟨b, -, rfl⟩ := map_eq_ok.1 h
      rfl
    | succ i =>
      obtain ⟨rest, hrest, rfl⟩ := map_eq_ok.1 h
      rw [List.length_cons, ih hrest, List.length_cons]

namespace Layout

variable {layout : Layout} {node : Node} {row : RawRow}

/-- A row with a partner has a key that is not NULL. -/
theorem exists_key_of_hasPartner {found : Option Scalar}
    (h : layout.value row node node.model.primaryKey = .ok found)
    (hpartner : layout.hasPartner node row = true) :
    ∃ key, found = some key ∧ key.isNull = false := by
  rw [hasPartner_of_value h] at hpartner
  cases found with
  | none => cases hpartner
  | some key => exact ⟨key, rfl, by simpa using hpartner⟩

/-- A row whose key cannot be read is not entered. -/
theorem attach_error {e : ResolutionError}
    (h : layout.value row node node.model.primaryKey = .error e) (parent : Record) :
    layout.attach row parent node = .error e := by
  cases node
  rw [attach, h]
  rfl

/-- A row without a partner opens the slot, and no more. -/
theorem attach_absent {found : Option Scalar}
    (h : layout.value row node node.model.primaryKey = .ok found)
    (hnot : layout.hasPartner node row = false) (parent : Record) :
    layout.attach row parent node = .ok (parent.ensureSlot node.model.table) := by
  rw [hasPartner_of_value h] at hnot
  cases node
  rw [attach, h]
  cases found with
  | none => rfl
  | some key =>
    have hnull : key.isNull = true := by simpa using hnot
    simp only [bind, Except.bind, hnull, if_true]

/-- A row whose key a record of the slot has is entered below that record. -/
theorem attach_found {key : Scalar} {parent : Record} {records : List Record} {i : Nat}
    {child : Record} (h : layout.value row node node.model.primaryKey = .ok (some key))
    (hnull : key.isNull = false)
    (hrelated : (parent.ensureSlot node.model.table).related? node.model.table = some records)
    (hfind : records.findIdx? (Record.hasKey key) = some i) (hget : records[i]? = some child) :
    layout.attach row parent node =
      (layout.attachAll row child node.nested).map fun child =>
        (parent.ensureSlot node.model.table).setSlot node.model.table (records.set i child) := by
  obtain ⟨model, position, nested⟩ := node
  rw [attach, h]
  simp only [bind, Except.bind, hnull, Bool.false_eq_true, if_false, hrelated, Option.getD_some,
    hfind, modifyAt_eq _ hget]
  cases layout.attachAll row child nested <;> rfl

/-- A row with a new key gets a record behind the others, and is entered below it. -/
theorem attach_new {key : Scalar} {parent : Record} {records : List Record}
    (h : layout.value row node node.model.primaryKey = .ok (some key))
    (hnull : key.isNull = false)
    (hrelated : (parent.ensureSlot node.model.table).related? node.model.table = some records)
    (hfind : records.findIdx? (Record.hasKey key) = none) :
    layout.attach row parent node =
      ((layout.record row node).bind fun child => layout.attachAll row child node.nested).map
        fun child => (parent.ensureSlot node.model.table).setSlot node.model.table
          (records ++ [child]) := by
  obtain ⟨model, position, nested⟩ := node
  rw [attach, h]
  simp only [bind, Except.bind, hnull, Bool.false_eq_true, if_false, hrelated, Option.getD_some,
    hfind]
  cases layout.record row ⟨model, position, nested⟩ with
  | error e => rfl
  | ok child => cases layout.attachAll row child nested <;> rfl

end Layout

end QueryForest
