import Mathlib.Data.List.Sort
import QueryForest.Data.NameMap
import QueryForest.Proofs.Data.Entries

namespace QueryForest.NameMap

/-!
# Maps by what they hold

A map from names is known from what is read under all names, as its entries are in order.

* `get?_insert` — writing one entry of a map, as seen from any name;
* `names` — the names of a map, in order; `mem_names_iff` says when a name is one of them;
* `ext_get?` — maps that hold the same under all names are the same.
-/

variable {α β : Type}

/-! ### Writing -/

/-- A written entry is found under its name, and the other names are untouched. -/
theorem find?_place (name other : String) (value : α) (entries : List (String × α)) :
    (place name value entries).find? (·.1 == other) =
      if name = other then some (name, value) else entries.find? (·.1 == other) := by
  induction entries with
  | nil =>
    unfold place
    by_cases h : name = other
    · simp [h]
    · simp [h]
  | cons e rest ih =>
    obtain ⟨n, v⟩ := e
    unfold place
    -- in front of the first entry, over it, or further back
    split
    · by_cases h : name = other
      · simp [h]
      · simp [h]
    · split
      · next hn =>
        subst hn
        by_cases h : n = other
        · simp [h]
        · simp [h]
      · next hn =>
        by_cases h : n = other
        · have hother : ¬ name = other := fun heq => hn (h.trans heq.symm)
          simp [h, hother]
        · rw [List.find?_cons_of_neg (by simpa using h), ih,
            List.find?_cons_of_neg (by simpa using h)]

/-- A written value is read under its name, and nothing changes under other names. -/
theorem get?_insert (m : NameMap α) (name other : String) (value : α) :
    (m.insert name value).get? other = if name = other then some value else m.get? other := by
  unfold get? insert
  rw [find?_place]
  split <;> rfl

/-! ### Reading -/

/-- The names of a map, in ascending order. -/
def names (m : NameMap α) : List String := m.toList.map Prod.fst

/-- A map is read like the list of its entries. -/
theorem get?_eq (m : NameMap α) (name : String) : m.get? name = Assoc.get? name m.toList := by
  unfold get? toList
  induction m.entries with
  | nil => rfl
  | cons e rest ih =>
    obtain ⟨n, v⟩ := e
    by_cases h : n = name
    · simp [Assoc.get?, h]
    · simp [Assoc.get?, h, ih]

/-- The names stand in their order. -/
theorem names_ascending (m : NameMap α) : m.names.Pairwise (· < ·) :=
  List.pairwise_map.2 m.ascending

/-- So no name occurs twice. -/
theorem nodup_names (m : NameMap α) : m.names.Nodup := m.names_ascending.imp String.ne_of_lt

/-- What is not found is not among the names. -/
theorem get?_eq_none_iff {m : NameMap α} {name : String} :
    m.get? name = none ↔ name ∉ m.names := by
  rw [get?_eq]
  exact Assoc.get?_eq_none_iff

/-- The names are those that have a value. -/
theorem mem_names_iff {m : NameMap α} {name : String} :
    name ∈ m.names ↔ (m.get? name).isSome := by
  rw [Option.isSome_iff_ne_none, ne_eq, get?_eq_none_iff, not_not]

/-- The entries are what is found. -/
theorem mem_toList_iff {m : NameMap α} {name : String} {value : α} :
    (name, value) ∈ m.toList ↔ m.get? name = some value := by
  rw [get?_eq]
  exact ⟨Assoc.get?_of_mem m.nodup_names, Assoc.mem_of_get?⟩

/-- Maps with something under the same names have the same names in the same order. -/
theorem names_congr {m : NameMap α} {n : NameMap β}
    (h : ∀ name, (m.get? name).isSome = (n.get? name).isSome) : m.names = n.names := by
  refine m.names_ascending.eq_of_mem_iff n.names_ascending fun name => ?_
  rw [mem_names_iff, mem_names_iff, h name]

/-- **A map is what is read in it.** -/
theorem ext_get? {m n : NameMap α} (h : ∀ name, m.get? name = n.get? name) : m = n := by
  -- the order of names is strict, and so it leaves one place for each entry
  have hirrefl : Std.Irrefl fun a b : String × α => a.1 < b.1 :=
    ⟨fun a => String.lt_irrefl a.1⟩
  have hantisymm : Std.Antisymm fun a b : String × α => a.1 < b.1 :=
    ⟨fun a b hab hba => absurd hba (String.lt_asymm hab)⟩
  have hentries : m.toList = n.toList := by
    refine m.ascending.eq_of_mem_iff n.ascending fun e => ?_
    obtain ⟨name, value⟩ := e
    show (name, value) ∈ m.toList ↔ (name, value) ∈ n.toList
    rw [mem_toList_iff, mem_toList_iff, h name]
  cases m
  cases n
  cases hentries
  rfl

end QueryForest.NameMap
