import Mathlib.Data.List.Forall2

namespace QueryForest

/-!
# Steps that may fail

A computation in `Except` or `Option` is a chain of steps, and it gives a result only if every step
gives one.

* `bind_eq_ok` and `map_eq_ok` — the steps behind a result, read off the chain;
* `mapM_eq_ok` and `exists_of_mem_mapM` — the same for one step for each element of a list;
* `bind_of_some` and `bind_of_none` — a chain whose first step is known.
-/

universe u v w

variable {ε : Type u} {α : Type v} {β : Type v}

/-- A chain has a result if its first step has one and the rest has one for it. -/
theorem bind_eq_ok {x : Except ε α} {f : α → Except ε β} {b : β} :
    (x >>= f) = .ok b ↔ ∃ a, x = .ok a ∧ f a = .ok b := by
  constructor
  · intro h
    cases x with
    | error e => cases h
    | ok a => exact ⟨a, rfl, h⟩
  · rintro ⟨a, rfl, h⟩
    exact h

/-- A changed result is that of the step. -/
theorem map_eq_ok {α : Type v} {β : Type w} {x : Except ε α} {f : α → β} {b : β} :
    x.map f = .ok b ↔ ∃ a, x = .ok a ∧ f a = b := by
  constructor
  · intro h
    cases x with
    | error e => cases h
    | ok a => exact ⟨a, rfl, Except.ok.inj h⟩
  · rintro ⟨a, rfl, rfl⟩
    rfl

/-- One step for each element of a list gives a list of results if each step gives its result. -/
theorem mapM_eq_ok {α : Type v} {β : Type w} {step : α → Except ε β} {l : List α}
    {results : List β} :
    l.mapM step = .ok results ↔ List.Forall₂ (fun a b => step a = .ok b) l results := by
  induction l generalizing results with
  | nil =>
    rw [List.mapM_nil, List.forall₂_nil_left_iff]
    exact ⟨fun h => (Except.ok.inj h).symm, fun h => congrArg Except.ok h.symm⟩
  | cons a rest ih =>
    rw [List.mapM_cons, List.forall₂_cons_left_iff]
    constructor
    · intro h
      obtain ⟨b, hb, h⟩ := bind_eq_ok.1 h
      obtain ⟨others, hothers, h⟩ := bind_eq_ok.1 h
      cases h
      exact ⟨b, others, hb, ih.1 hothers, rfl⟩
    · rintro ⟨b, others, hb, hothers, rfl⟩
      exact bind_eq_ok.2 ⟨b, hb, bind_eq_ok.2 ⟨others, ih.2 hothers, rfl⟩⟩

/-- Each result of a list of steps is that of one of them. -/
theorem exists_of_mem_mapM {α : Type v} {β : Type w} {step : α → Except ε β} {l : List α}
    {results : List β} (h : l.mapM step = .ok results) {b : β} (hb : b ∈ results) :
    ∃ a ∈ l, step a = .ok b := by
  have hall := mapM_eq_ok.1 h
  clear h
  induction hall with
  | nil => cases hb
  | @cons a first l others hfirst _ ih =>
    rcases List.mem_cons.1 hb with rfl | hb
    · exact ⟨a, List.mem_cons_self, hfirst⟩
    · obtain ⟨a', ha', hstep⟩ := ih hb
      exact ⟨a', List.mem_cons_of_mem a ha', hstep⟩

/-- A chain goes on with what its first step gives. -/
theorem bind_of_some {x : Option α} {f : α → Option β} {a : α} {r : Option β} (hx : x = some a)
    (h : f a = r) : (x >>= f) = r := by
  rw [hx]
  exact h

/-- A chain ends with its first step if that gives nothing. -/
theorem bind_of_none {x : Option α} {f : α → Option β} (hx : x = none) : (x >>= f) = none := by
  rw [hx]
  rfl

end QueryForest
