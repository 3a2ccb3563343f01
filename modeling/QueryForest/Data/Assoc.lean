namespace QueryForest.Assoc

/-!
# Association lists

Lists of named entries in the order of the first write, at most one entry per name.

* `set` writes in place when the name is present and appends otherwise;
* `get?` reads the entry of a name.
-/

universe u

variable {α : Type u}

/-- Writes `value` under `name`: over the present entry, else behind all entries. -/
def set (name : String) (value : α) : List (String × α) → List (String × α)
  | [] => [(name, value)]
  | (n, v) :: rest => if n = name then (n, value) :: rest else (n, v) :: set name value rest

/-- The value of the first entry called `name`. -/
def get? (name : String) : List (String × α) → Option α
  | [] => none
  | (n, v) :: rest => if n = name then some v else get? name rest

/-- What is written under a name is read under it. -/
@[simp] theorem get?_set_self (name : String) (value : α) (entries : List (String × α)) :
    get? name (set name value entries) = some value := by
  induction entries with
  | nil => simp [set, get?]
  | cons e rest ih =>
    obtain ⟨n, v⟩ := e
    by_cases h : n = name <;> simp [set, get?, h, ih]

/-- A write is not seen under any other name. -/
theorem get?_set_of_ne {name other : String} (h : other ≠ name) (value : α)
    (entries : List (String × α)) :
    get? other (set name value entries) = get? other entries := by
  induction entries with
  | nil => simp [set, get?, h.symm]
  | cons e rest ih =>
    obtain ⟨n, v⟩ := e
    by_cases hn : n = name
    · subst hn; simp [set, get?, h.symm]
    · by_cases ho : n = other
      · subst ho; simp [set, get?, h]
      · simp [set, get?, hn, ho, ih]

end QueryForest.Assoc
