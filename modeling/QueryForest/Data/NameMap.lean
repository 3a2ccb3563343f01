namespace QueryForest

/-!
# Finite maps from names

A `NameMap` keeps its entries strictly ascending by name (code point order), so two maps with the
same entries are the same value, in whatever order they were written.

* `NameMap.insert` writes one entry, over an earlier one of the same name;
* `NameMap.get?` reads it back, `NameMap.toList` lists all entries in name order;
* `NameMap.ofList` writes the entries of a list one after the other.
-/

universe u

/-- A finite map from names to values, as its entries in ascending order of their names. -/
structure NameMap (α : Type u) where
  entries : List (String × α)
  ascending : entries.Pairwise (fun a b => a.1 < b.1)

namespace NameMap

variable {α : Type u}

/-- Puts an entry at its place in an ascending list, over an earlier entry of that name. -/
def place (name : String) (value : α) : List (String × α) → List (String × α)
  | [] => [(name, value)]
  | (n, v) :: rest =>
    if name < n then (name, value) :: (n, v) :: rest
    else if n = name then (name, value) :: rest
    else (n, v) :: place name value rest

/-- An entry of the map behind a write is the one written or was there before. -/
theorem mem_place {name : String} {value : α} {e : String × α} {entries : List (String × α)}
    (h : e ∈ place name value entries) : e = (name, value) ∨ e ∈ entries := by
  induction entries with
  | nil => exact Or.inl (by simpa [place] using h)
  | cons d rest ih =>
    obtain ⟨n, v⟩ := d
    unfold place at h
    split at h
    · simpa using h
    · split at h
      · simp only [List.mem_cons] at h ⊢
        exact h.imp id Or.inr
      · simp only [List.mem_cons] at h ⊢
        rcases h with h | h
        · exact Or.inr (Or.inl h)
        · exact (ih h).imp id Or.inr

/-- A write keeps the entries in the order of their names. -/
theorem place_ascending (name : String) (value : α) {entries : List (String × α)}
    (h : entries.Pairwise (fun a b => a.1 < b.1)) :
    (place name value entries).Pairwise (fun a b => a.1 < b.1) := by
  induction entries with
  | nil => simp [place]
  | cons d rest ih =>
    obtain ⟨n, v⟩ := d
    rw [List.pairwise_cons] at h
    unfold place
    split
    · next hlt =>
      refine List.pairwise_cons.2 ⟨fun e he => ?_, List.pairwise_cons.2 h⟩
      rcases List.mem_cons.1 he with rfl | he
      · exact hlt
      · exact String.lt_trans hlt (h.1 e he)
    · next hle =>
      split
      · next heq => exact List.pairwise_cons.2 ⟨fun e he => heq ▸ h.1 e he, h.2⟩
      · next hne =>
        refine List.pairwise_cons.2 ⟨fun e he => ?_, ih h.2⟩
        -- further back there is the new entry or an old one, and the new name is larger as well
        rcases mem_place he with rfl | he
        · have hle' : n ≤ name := String.not_lt.1 hle
          exact Decidable.byContradiction fun hn =>
            hne (String.le_antisymm hle' (String.not_lt.1 hn))
        · exact h.1 e he

/-- The map without entries. -/
def empty : NameMap α := ⟨[], List.Pairwise.nil⟩

/-- The value under `name`. -/
def get? (m : NameMap α) (name : String) : Option α :=
  (m.entries.find? (·.1 == name)).map Prod.snd

/-- Writes `value` under `name`, over what was there. -/
def insert (m : NameMap α) (name : String) (value : α) : NameMap α :=
  ⟨place name value m.entries, place_ascending name value m.ascending⟩

/-- The number of entries. -/
def size (m : NameMap α) : Nat := m.entries.length

/-- Whether there is no entry. -/
def isEmpty (m : NameMap α) : Bool := m.entries.isEmpty

/-- The entries in ascending order of their names. -/
def toList (m : NameMap α) : List (String × α) := m.entries

/-- Writes the entries of a list in order, so the last entry of a name wins. -/
def ofList (entries : List (String × α)) : NameMap α :=
  entries.foldl (fun m e => m.insert e.1 e.2) empty

end NameMap

end QueryForest
