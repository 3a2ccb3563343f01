import QueryForest.Proofs.Data.Entries

namespace QueryForest

/-!
# Writes in turn

What is written under a name goes over what was there, and a new name goes behind all others. So a
list of writes leaves its distinct names, in the order in which they came first, with the values
that came last.

* `Assoc.setAll` — entries after a list of writes;
* `Assoc.valuesOf` and `Assoc.last?` — all values under a name, and the last one;
* `Assoc.names_setAll` and `Assoc.get?_setAll` — the names and the values that writes leave;
* `Reordered` — the same writes in another order, but in the same order under each name, so that
  the last value of each name stays.
-/

universe u

variable {α : Type u}

namespace Assoc

/-- Writes the entries of a list in order. -/
def setAll (entries writes : List (String × α)) : List (String × α) :=
  writes.foldl (fun entries e => set e.1 e.2 entries) entries

/-- One more write goes over all those before it. -/
theorem setAll_concat (entries writes : List (String × α)) (e : String × α) :
    setAll entries (writes ++ [e]) = set e.1 e.2 (setAll entries writes) := by
  simp [setAll]

/-! ### The values under a name -/

/-- All values under a name, in order. -/
def valuesOf (name : String) (entries : List (String × α)) : List α :=
  (entries.filter (·.1 == name)).map (·.2)

/-- The last value under a name. -/
def last? (name : String) (entries : List (String × α)) : Option α :=
  (valuesOf name entries).getLast?

/-- The values of two lists, one behind the other. -/
@[simp] theorem valuesOf_append (name : String) (entries more : List (String × α)) :
    valuesOf name (entries ++ more) = valuesOf name entries ++ valuesOf name more := by
  unfold valuesOf
  rw [List.filter_append, List.map_append]

/-- A single entry has a value under its own name only. -/
theorem valuesOf_singleton (name : String) (e : String × α) :
    valuesOf name [e] = if e.1 = name then [e.2] else [] := by
  unfold valuesOf
  by_cases h : e.1 = name <;> simp [h]

/-- Only names of entries have values. -/
theorem valuesOf_eq_nil_iff {name : String} {entries : List (String × α)} :
    valuesOf name entries = [] ↔ name ∉ entries.map Prod.fst := by
  unfold valuesOf
  rw [List.map_eq_nil_iff, List.filter_eq_nil_iff]
  simp only [beq_iff_eq, List.mem_map, not_exists, not_and]

/-- There are as many values under a name as entries with it. -/
theorem length_valuesOf (name : String) (entries : List (String × α)) :
    (valuesOf name entries).length = (entries.map Prod.fst).count name := by
  unfold valuesOf
  rw [List.length_map, List.count_eq_length_filter, List.filter_map, List.length_map]
  rfl

/-- A name that stands once among those of the entries has one value. -/
theorem valuesOf_of_nodup {entries : List (String × α)} (h : (entries.map Prod.fst).Nodup)
    (name : String) : valuesOf name entries = (get? name entries).toList := by
  induction entries with
  | nil => rfl
  | cons e rest ih =>
    obtain ⟨n, v⟩ := e
    rw [List.map_cons, List.nodup_cons] at h
    rw [← List.singleton_append, valuesOf_append, valuesOf_singleton, ih h.2]
    by_cases hn : n = name
    · have hrest : get? name rest = none := get?_eq_none_iff.2 (hn ▸ h.1)
      simp [hn, hrest, get?]
    · simp [hn, get?]

/-- A name and its values tell the entries with the name. -/
theorem filter_eq_map_valuesOf (name : String) (entries : List (String × α)) :
    entries.filter (·.1 == name) = (valuesOf name entries).map (name, ·) := by
  unfold valuesOf
  rw [List.map_map]
  refine (List.map_id _).symm.trans (List.map_congr_left fun e he => ?_)
  have hname : e.1 = name := eq_of_beq (List.mem_filter.1 he).2
  exact Prod.ext hname rfl

/-- One more entry has the last value under its own name, and under no other. -/
theorem last?_concat (name : String) (writes : List (String × α)) (e : String × α) :
    last? name (writes ++ [e]) = if e.1 = name then some e.2 else last? name writes := by
  unfold last?
  rw [valuesOf_append, valuesOf_singleton]
  by_cases h : e.1 = name
  · rw [if_pos h, if_pos h, List.getLast?_concat]
  · rw [if_neg h, if_neg h, List.append_nil]

/-- Only names that were written have a last value. -/
theorem last?_eq_none_iff {name : String} {writes : List (String × α)} :
    last? name writes = none ↔ name ∉ writes.map Prod.fst :=
  List.getLast?_eq_none_iff.trans valuesOf_eq_nil_iff

/-- Leaving out the writes under some names leaves the others as they are. -/
theorem last?_filter (p : String → Bool) (name : String) (writes : List (String × α)) :
    last? name (writes.filter (p ·.1)) = if p name = true then last? name writes else none := by
  unfold last? valuesOf
  rw [List.filter_filter]
  by_cases h : p name = true
  · have hsame : ∀ e ∈ writes, (e.1 == name && p e.1) = (e.1 == name) := by
      intro e _
      by_cases he : e.1 = name
      · rw [he, h, Bool.and_true]
      · simp [he]
    rw [if_pos h, List.filter_congr hsame]
  · have hnone : ∀ e ∈ writes, ¬ (e.1 == name && p e.1) = true := by
      intro e _ he
      obtain ⟨heq, hp⟩ := Bool.and_eq_true_iff.1 he
      exact h (eq_of_beq heq ▸ hp)
    rw [if_neg h, List.filter_eq_nil_iff.2 hnone]
    rfl

/-- Writing what a reading finds for some names leaves what it finds under each of them. -/
theorem last?_found (g : String → Option α) (names : List String) (name : String) :
    last? name (names.filterMap fun n => (g n).map (n, ·)) =
      if name ∈ names then g name else none := by
  induction names using List.reverseRecOn with
  | nil => rfl
  | append_singleton names n ih =>
    rw [List.filterMap_append]
    cases hg : g n with
    | none =>
      by_cases hn : name = n
      · subst hn
        simp [hg, ih]
      · simp [hg, ih, hn]
    | some v =>
      -- the last name wins over its earlier occurrences, which found the same
      have hone : [n].filterMap (fun n => (g n).map (n, ·)) = [(n, v)] := by simp [hg]
      rw [hone, last?_concat, ih]
      by_cases hn : n = name
      · subst hn
        simp [hg]
      · have hn' : ¬ name = n := fun h => hn h.symm
        simp [hn, hn']

/-! ### What writes leave -/

/-- A write adds its name behind the others, unless it is there. -/
theorem names_set (name : String) (value : α) (entries : List (String × α)) :
    (set name value entries).map Prod.fst =
      if name ∈ entries.map Prod.fst then entries.map Prod.fst
      else entries.map Prod.fst ++ [name] := by
  induction entries with
  | nil => simp [set]
  | cons e rest ih =>
    obtain ⟨n, v⟩ := e
    by_cases hn : n = name
    · simp [set, hn]
    · have hn' : ¬ name = n := fun h => hn h.symm
      rw [set, if_neg hn, List.map_cons, ih]
      by_cases hmem : name ∈ rest.map Prod.fst
      · simp [hmem]
      · simp [hmem, hn']

/-- The names stand in the order of their first writes, each of them once. -/
theorem names_setAll (writes : List (String × α)) :
    (setAll [] writes).map Prod.fst = (writes.map Prod.fst).eraseDups := by
  induction writes using List.reverseRecOn with
  | nil => rfl
  | append_singleton writes e ih =>
    rw [setAll_concat, names_set, ih, List.map_append, List.map_singleton, eraseDups_concat]
    simp only [List.mem_eraseDups]

/-- **The last write wins.** -/
theorem get?_setAll (name : String) (writes : List (String × α)) :
    get? name (setAll [] writes) = last? name writes := by
  induction writes using List.reverseRecOn with
  | nil => rfl
  | append_singleton writes e ih =>
    rw [setAll_concat, last?_concat, ← ih]
    by_cases h : e.1 = name
    · rw [if_pos h, h, get?_set_self]
    · rw [if_neg h, get?_set_of_ne (Ne.symm h)]

end Assoc

/-! ### Writes in another order -/

/-- The same entries in another order, but in the same order under each name. -/
structure Reordered (writes others : List (String × α)) : Prop where
  perm : writes.Perm others
  order (name : String) : writes.filter (·.1 == name) = others.filter (·.1 == name)

/-- Entries that are the same under each name are the same entries. -/
theorem reordered_of_order [DecidableEq α] {writes others : List (String × α)}
    (h : ∀ name, writes.filter (·.1 == name) = others.filter (·.1 == name)) :
    Reordered writes others := by
  have hkeep : ∀ l : List (String × α), ∀ e, (l.filter (·.1 == e.1)).count e = l.count e := by
    intro l e
    have hown : (e.1 == e.1) = true := beq_self_eq_true e.1
    exact List.count_filter hown
  refine ⟨List.perm_iff_count.2 fun e => ?_, h⟩
  rw [← hkeep writes e, ← hkeep others e, h e.1]

namespace Reordered

variable {a b : String × α} {l l' l'' : List (String × α)}

/-- Writes may stand behind the same one. -/
theorem cons (e : String × α) (h : Reordered l l') : Reordered (e :: l) (e :: l') := by
  refine ⟨h.perm.cons e, fun name => ?_⟩
  rw [List.filter_cons, List.filter_cons, h.order name]

/-- Neighbours under different names may change places. -/
theorem swap (h : a.1 ≠ b.1) (l : List (String × α)) : Reordered (a :: b :: l) (b :: a :: l) := by
  refine ⟨.swap b a l, fun name => ?_⟩
  by_cases ha : a.1 = name
  · have hb : ¬ b.1 = name := fun hb => h (ha.trans hb.symm)
    simp [ha, hb]
  · simp [List.filter_cons, ha]

/-- Reordering twice is reordering. -/
theorem trans (h : Reordered l l') (h' : Reordered l' l'') : Reordered l l'' :=
  ⟨h.perm.trans h'.perm, fun name => (h.order name).trans (h'.order name)⟩

/-- Each name has the same values in the same order. -/
theorem valuesOf_eq (h : Reordered l l') (name : String) :
    Assoc.valuesOf name l = Assoc.valuesOf name l' := by
  unfold Assoc.valuesOf
  rw [h.order name]

/-- So each name keeps its last value. -/
theorem last?_eq (h : Reordered l l') (name : String) :
    Assoc.last? name l = Assoc.last? name l' :=
  congrArg List.getLast? (h.valuesOf_eq name)

end Reordered

end QueryForest
