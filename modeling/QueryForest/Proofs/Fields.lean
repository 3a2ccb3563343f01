import QueryForest.Fields
import QueryForest.Proofs.Data.Writes

namespace QueryForest.Fields

/-!
# What assignments come to

Fields are set one after the other, and a field that is set again has the new value.

* `Fields.get?` — the value of a field;
* `Fields.get?_ofList` — that is the last value that was given to it;
* `Fields.exists_place` — a field with a value has a place among the names and the values;
* `Fields.IsAfter` — fields as assignments leave them: each name once, where it was set first, with
  the value that was set last.
-/

/-- The value of a field. -/
def get? (fields : Fields) (field : String) : Option BindValue := Assoc.get? field fields.entries

/-- Sets the fields of a list in order. -/
def setAll (fields : Fields) (later : List (String × BindValue)) : Fields :=
  later.foldl (fun fields e => fields.set e.1 e.2) fields

/-- The entries behind further assignments are those behind as many writes. -/
theorem entries_setAll (fields : Fields) (later : List (String × BindValue)) :
    (fields.setAll later).entries = Assoc.setAll fields.entries later := by
  induction later generalizing fields with
  | nil => rfl
  | cons e later ih => exact ih (fields.set e.1 e.2)

/-- Collected fields are what writes leave. -/
theorem entries_ofList (entries : List (String × BindValue)) :
    (ofList entries).entries = Assoc.setAll [] entries := entries_setAll empty entries

/-- Setting more fields. -/
theorem ofList_append (entries later : List (String × BindValue)) :
    ofList (entries ++ later) = (ofList entries).setAll later :=
  List.foldl_append

/-- **The last assignment wins.** -/
theorem get?_ofList (field : String) (entries : List (String × BindValue)) :
    (ofList entries).get? field = Assoc.last? field entries := by
  unfold get?
  rw [entries_ofList]
  exact Assoc.get?_setAll field entries

/-- A field with a value stands somewhere among the names, and the value at that place. -/
theorem exists_place {fields : Fields} {field : String} {value : BindValue}
    (h : fields.get? field = some value) :
    ∃ i : Nat, fields.names[i]? = some field ∧ fields.values[i]? = some value := by
  obtain ⟨i, hi⟩ := List.mem_iff_getElem?.1 (Assoc.mem_of_get? h)
  refine ⟨i, ?_, ?_⟩
  · rw [names, List.getElem?_map, hi]
    rfl
  · rw [values, List.getElem?_map, hi]
    rfl

/-- Fields as a list of assignments leaves them: the names are different, stand in the order in
which they were set first, and have the values that were set last. -/
structure IsAfter (fields : Fields) (writes : List (String × BindValue)) : Prop where
  nodup : fields.names.Nodup
  names_eq : fields.names = (writes.map Prod.fst).eraseDups
  mem_iff (field : String) (value : BindValue) :
    (field, value) ∈ fields.toList ↔ Assoc.last? field writes = some value

/-- **Fields stay a map**, whatever is set. -/
theorem isAfter_ofList (writes : List (String × BindValue)) : (ofList writes).IsAfter writes := by
  have hnames : (ofList writes).names = (writes.map Prod.fst).eraseDups := by
    unfold names
    rw [entries_ofList, Assoc.names_setAll]
  have hnodup : (ofList writes).names.Nodup := hnames ▸ nodup_eraseDups _
  refine ⟨hnodup, hnames, fun field value => ?_⟩
  rw [← get?_ofList]
  exact ⟨Assoc.get?_of_mem hnodup, Assoc.mem_of_get?⟩

/-- There are fields if they are not empty. -/
theorem size_pos_iff {fields : Fields} : 0 < fields.size ↔ fields.isEmpty = false :=
  List.length_pos_iff.trans List.isEmpty_eq_false_iff.symm

/-- Fields that are not empty have entries. -/
theorem toList_ne_nil {fields : Fields} (h : fields.isEmpty = false) : fields.toList ≠ [] :=
  List.isEmpty_eq_false_iff.1 h

/-- Fields that are not empty have names. -/
theorem names_ne_nil {fields : Fields} (h : fields.isEmpty = false) : fields.names ≠ [] :=
  mt List.map_eq_nil_iff.1 (toList_ne_nil h)

/-- Fields that are not empty have values. -/
theorem values_ne_nil {fields : Fields} (h : fields.isEmpty = false) : fields.values ≠ [] :=
  mt List.map_eq_nil_iff.1 (toList_ne_nil h)

/-- No field goes away again. -/
theorem isEmpty_ofList (writes : List (String × BindValue)) :
    (ofList writes).isEmpty = writes.isEmpty := by
  cases writes with
  | nil => rfl
  | cons e rest =>
    have hfirst : e.1 ∈ (ofList (e :: rest)).names := by
      rw [(isAfter_ofList _).names_eq, List.mem_eraseDups]
      exact List.mem_cons_self
    obtain ⟨entry, hentry, -⟩ := List.mem_map.1 hfirst
    rw [List.isEmpty_cons, isEmpty, List.isEmpty_eq_false_iff]
    exact List.ne_nil_of_mem hentry

end QueryForest.Fields
