import Mathlib.Data.List.Basic
import Mathlib.Data.List.Induction
import QueryForest.Data.Assoc
import QueryForest.Proofs.Data.Arrival

namespace QueryForest

/-!
# Named entries

Association lists as they are used for the values and the slots of records.

* `Assoc.get?_append_cons`, `Assoc.set_append_cons` — an entry in the middle is read and written
  without touching its neighbours;
* `foundEntries g names` — the entries that a reading `g` finds for the distinct names of a list;
  `Assoc.get?_foundEntries` reads them back, and `foundEntries_get?` finds all entries again;
* `eraseDups_pairwise_idxOf` — the distinct names of a list stand in the order of their first
  places.
-/

universe u v

variable {α : Type u}

namespace Assoc

/-- What is not found has no entry. -/
theorem get?_eq_none_iff {name : String} {entries : List (String × α)} :
    get? name entries = none ↔ name ∉ entries.map Prod.fst := by
  induction entries with
  | nil => simp [get?]
  | cons e rest ih =>
    obtain ⟨n, v⟩ := e
    by_cases h : n = name
    · simp [get?, h]
    · have h' : ¬ name = n := fun heq => h heq.symm
      simp [get?, h, h', ih]

/-- The first entry with a name is read. -/
theorem get?_append_cons {name : String} {before : List (String × α)}
    (h : name ∉ before.map Prod.fst) (value : α) (after : List (String × α)) :
    get? name (before ++ (name, value) :: after) = some value := by
  induction before with
  | nil => simp [get?]
  | cons e rest ih =>
    obtain ⟨n, v⟩ := e
    simp only [List.map_cons, List.mem_cons, not_or] at h
    have hn : ¬ n = name := fun heq => h.1 heq.symm
    simp [get?, hn, ih h.2]

/-- The entries of different keys are read under their names. -/
theorem get?_map_of_nodup {κ : Type v} {name : κ → String} {keys : List κ}
    (h : (keys.map name).Nodup) (value : κ → α) {key : κ} (hkey : key ∈ keys) :
    get? (name key) (keys.map fun k => (name k, value k)) = some (value key) := by
  obtain ⟨before, after, rfl⟩ := List.append_of_mem hkey
  rw [List.map_append, List.map_cons, List.nodup_append] at h
  rw [List.map_append, List.map_cons]
  refine get?_append_cons (fun hmem => ?_) _ _
  rw [List.map_map] at hmem
  exact h.2.2 _ hmem _ List.mem_cons_self rfl

/-- The first entry with a name is written over. -/
theorem set_append_cons {name : String} {before : List (String × α)}
    (h : name ∉ before.map Prod.fst) (value new : α) (after : List (String × α)) :
    set name new (before ++ (name, value) :: after) = before ++ (name, new) :: after := by
  induction before with
  | nil => simp [set]
  | cons e rest ih =>
    obtain ⟨n, v⟩ := e
    simp only [List.map_cons, List.mem_cons, not_or] at h
    have hn : ¬ n = name := fun heq => h.1 heq.symm
    simp [set, hn, ih h.2]

/-- What is read is the value of an entry. -/
theorem mem_of_get? {name : String} {value : α} {entries : List (String × α)}
    (h : get? name entries = some value) : (name, value) ∈ entries := by
  induction entries with
  | nil => cases h
  | cons e rest ih =>
    obtain ⟨n, v⟩ := e
    by_cases hn : n = name
    · simp only [get?, hn, if_true, Option.some.injEq] at h
      rw [hn, h]
      exact List.mem_cons_self
    · simp only [get?, hn, if_false] at h
      exact List.mem_cons_of_mem _ (ih h)

/-- Entries under different names are all read under their names. -/
theorem get?_of_mem {name : String} {value : α} {entries : List (String × α)}
    (hnodup : (entries.map Prod.fst).Nodup) (h : (name, value) ∈ entries) :
    get? name entries = some value := by
  obtain ⟨before, after, rfl⟩ := List.append_of_mem h
  rw [List.map_append, List.map_cons, List.nodup_append] at hnodup
  exact get?_append_cons (fun hmem => hnodup.2.2 name hmem name List.mem_cons_self rfl) value after

/-- Entries under different names are known from what is read under them. -/
theorem eq_map_get? {entries : List (String × α)} (h : (entries.map Prod.fst).Nodup) (default : α) :
    entries = (entries.map Prod.fst).map fun name => (name, (get? name entries).getD default) := by
  induction entries with
  | nil => rfl
  | cons e rest ih =>
    obtain ⟨n, v⟩ := e
    rw [List.map_cons, List.nodup_cons] at h
    have hrest : ((rest.map Prod.fst).map fun name =>
        (name, (get? name ((n, v) :: rest)).getD default)) = rest := by
      refine Eq.trans (List.map_congr_left fun name hname => ?_) (ih h.2).symm
      have hne : ¬ n = name := fun heq => h.1 (heq ▸ hname)
      simp [get?, hne]
    rw [List.map_cons, List.map_cons, hrest]
    simp [get?]

end Assoc

/-! ### Distinct names in order -/

/-- Distinct names stand in the order of their first places. -/
theorem eraseDups_pairwise_idxOf (l : List String) :
    l.eraseDups.Pairwise fun a b => l.idxOf a ≤ l.idxOf b := by
  induction l using List.reverseRecOn with
  | nil => exact List.Pairwise.nil
  | append_singleton l c ih =>
    -- the place of a name that was there does not move
    have hplace : ∀ a ∈ l.eraseDups, (l ++ [c]).idxOf a = l.idxOf a := fun a ha =>
      List.idxOf_append_of_mem (List.mem_eraseDups.1 ha)
    have hold : l.eraseDups.Pairwise fun a b => (l ++ [c]).idxOf a ≤ (l ++ [c]).idxOf b := by
      refine ih.imp_of_mem fun ha hb h => ?_
      rw [hplace _ ha, hplace _ hb]
      exact h
    rw [eraseDups_concat]
    split
    · exact hold
    · next hc =>
      refine List.pairwise_append.2 ⟨hold, List.pairwise_singleton _ _, fun a ha b hb => ?_⟩
      rw [List.mem_singleton.1 hb, hplace a ha, List.idxOf_append_of_notMem hc]
      have := List.idxOf_lt_length_of_mem (List.mem_eraseDups.1 ha)
      omega

/-! ### Entries that a reading finds -/

/-- The entries that a reading finds for the distinct names of a list. -/
def foundEntries (g : String → Option α) (names : List String) : List (String × α) :=
  names.eraseDups.filterMap fun name => (g name).map (name, ·)

/-- What a reading finds for some names is read under each of them. -/
theorem get?_filterMap_found (g : String → Option α) (names : List String) (name : String) :
    Assoc.get? name (names.filterMap fun n => (g n).map (n, ·)) =
      if name ∈ names then g name else none := by
  induction names with
  | nil => rfl
  | cons n rest ih =>
    by_cases hn : n = name
    · subst hn
      cases hg : g n with
      | none => simp [hg, ih]
      | some v => simp [hg, Assoc.get?]
    · have hn' : ¬ name = n := fun h => hn h.symm
      cases hg : g n <;> simp [hg, Assoc.get?, hn, hn', ih]

/-- What is found for a name of the list is read under it, and nothing under other names. -/
theorem Assoc.get?_foundEntries (g : String → Option α) (names : List String) (name : String) :
    Assoc.get? name (foundEntries g names) = if name ∈ names then g name else none := by
  rw [foundEntries, get?_filterMap_found]
  simp only [List.mem_eraseDups]

/-- Only what is found for the names of the list matters. -/
theorem foundEntries_congr {g g' : String → Option α} {names : List String}
    (h : ∀ name ∈ names, g name = g' name) : foundEntries g names = foundEntries g' names := by
  unfold foundEntries
  refine List.filterMap_congr fun name hname => ?_
  rw [h name (List.mem_eraseDups.1 hname)]

/-- An entry is there for each name of the list with a value. -/
theorem mem_foundEntries {g : String → Option α} {names : List String} {name : String} {value : α} :
    (name, value) ∈ foundEntries g names ↔ name ∈ names ∧ g name = some value := by
  unfold foundEntries
  rw [List.mem_filterMap]
  constructor
  · rintro ⟨n, hn, hfound⟩
    obtain ⟨v, hv, heq⟩ := Option.map_eq_some_iff.1 hfound
    cases heq
    exact ⟨List.mem_eraseDups.1 hn, hv⟩
  · rintro ⟨hname, hvalue⟩
    exact ⟨name, List.mem_eraseDups.2 hname, by rw [hvalue]; rfl⟩

/-- The names under which there is something to find. -/
theorem map_fst_foundEntries (g : String → Option α) (names : List String) :
    (foundEntries g names).map Prod.fst =
      names.eraseDups.filter fun name => (g name).isSome := by
  unfold foundEntries
  induction names.eraseDups with
  | nil => rfl
  | cons name rest ih => cases hg : g name <;> simp [hg, ih]

/-- The found entries are under different names of the list, in its order. -/
theorem names_foundEntries (g : String → Option α) (names : List String) :
    ((foundEntries g names).map Prod.fst).Sublist names ∧
      ((foundEntries g names).map Prod.fst).Nodup := by
  rw [map_fst_foundEntries]
  exact ⟨List.filter_sublist.trans (eraseDups_sublist names),
    (nodup_eraseDups names).sublist List.filter_sublist⟩

/-- The found entries stand in the order of the names. -/
theorem foundEntries_pairwise_idxOf (g : String → Option α) (names : List String) :
    (foundEntries g names).Pairwise fun x y => names.idxOf x.1 ≤ names.idxOf y.1 := by
  refine List.pairwise_filterMap.2 ((eraseDups_pairwise_idxOf names).imp ?_)
  intro a b hab x hx y hy
  obtain ⟨v, -, rfl⟩ := Option.map_eq_some_iff.1 hx
  obtain ⟨w, -, rfl⟩ := Option.map_eq_some_iff.1 hy
  exact hab

/-- Entries under different names are what is found by reading all of them. -/
theorem foundEntries_get? {entries : List (String × α)} (h : (entries.map Prod.fst).Nodup)
    {g : String → Option α} (hg : ∀ name ∈ entries.map Prod.fst, g name = Assoc.get? name entries) :
    foundEntries g (entries.map Prod.fst) = entries := by
  unfold foundEntries
  rw [eraseDups_of_nodup h]
  induction entries with
  | nil => rfl
  | cons e rest ih =>
    obtain ⟨n, v⟩ := e
    rw [List.map_cons, List.nodup_cons] at h
    have hhere : g n = some v := by
      rw [hg n List.mem_cons_self]
      simp [Assoc.get?]
    have hrest := ih h.2 fun name hname => by
      have hne : ¬ n = name := fun heq => h.1 (heq ▸ hname)
      rw [hg name (List.mem_cons_of_mem _ hname)]
      simp [Assoc.get?, hne]
    rw [List.map_cons, List.filterMap_cons, hhere, hrest]
    rfl

end QueryForest
