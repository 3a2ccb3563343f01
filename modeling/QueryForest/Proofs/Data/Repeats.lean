import QueryForest.Proofs.Data.Arrival

namespace QueryForest

/-!
# Repeated elements

A program that goes through a list from the front may meet an element again. Whether that changes
what it does depends on what it keeps of the elements before.

* `Repeats` — a list with copies of its elements inserted behind them;
* `Repeats.head?_eq`, `Repeats.mem_iff`, `Repeats.filter`, `Repeats.eraseDupsBy_eq` — what does not
  change with the copies;
* `inTurn` — a step that may fail, for each element behind those before it;
* `inTurn_repeats` — where a step looks only at which elements came before, and succeeds again for
  an element that is among them, copies change nothing.
-/

universe u v

variable {α : Type u} {ε : Type v}

/-- A list with copies of its elements inserted, each anywhere behind what it is a copy of. -/
inductive Repeats (l : List α) : List α → Prop
  | same : Repeats l l
  | again {before after : List α} {a : α} (mem : a ∈ before) (rest : Repeats l (before ++ after)) :
      Repeats l (before ++ a :: after)

/-! ### What copies leave as it is -/

/-- An element that is the same as itself is not kept a second time. -/
theorem eraseDupsBy_insert {r : α → α → Bool} {before : List α} {a : α} (hmem : a ∈ before)
    (hself : r a a = true) (after : List α) :
    (before ++ a :: after).eraseDupsBy r = (before ++ after).eraseDupsBy r := by
  induction after using List.reverseRecOn with
  | nil =>
    have hany : (before.eraseDupsBy r).any (r a) = true :=
      List.any_eq_true.2 (exists_mem_eraseDupsBy hmem hself)
    rw [eraseDupsBy_concat, if_pos hany, List.append_nil]
  | append_singleton after b ih =>
    rw [← List.cons_append, ← List.append_assoc, ← List.append_assoc, eraseDupsBy_concat,
      eraseDupsBy_concat, ih]

namespace Repeats

variable {l l' : List α}

/-- Copies add no element. -/
theorem mem_iff (h : Repeats l l') (b : α) : b ∈ l' ↔ b ∈ l := by
  induction h with
  | same => exact Iff.rfl
  | @again before after a mem rest ih =>
    rw [← ih, List.mem_append, List.mem_append, List.mem_cons]
    constructor
    · rintro (hb | rfl | hb)
      · exact Or.inl hb
      · exact Or.inl mem
      · exact Or.inr hb
    · exact Or.imp_right Or.inr

/-- Copies come behind what they copy, so that the first element stays. -/
theorem head?_eq (h : Repeats l l') : l'.head? = l.head? := by
  induction h with
  | same => rfl
  | @again before after a mem rest ih =>
    obtain ⟨first, others, rfl⟩ := List.exists_cons_of_ne_nil (List.ne_nil_of_mem mem)
    exact ih

/-- A filter leaves copies out together with what they copy. -/
theorem filter (h : Repeats l l') (p : α → Bool) : Repeats (l.filter p) (l'.filter p) := by
  induction h with
  | same => exact .same
  | @again before after a mem rest ih =>
    rw [List.filter_append] at ih
    rw [List.filter_append, List.filter_cons]
    split
    · next hp => exact .again (List.mem_filter.2 ⟨mem, hp⟩) ih
    · exact ih

/-- Copies are erased, if each element is related to itself. -/
theorem eraseDupsBy_eq {r : α → α → Bool} (h : Repeats l l') (hself : ∀ a ∈ l, r a a = true) :
    l'.eraseDupsBy r = l.eraseDupsBy r := by
  induction h with
  | same => rfl
  | @again before after a mem rest ih =>
    have ha : a ∈ l := (rest.mem_iff a).1 (List.mem_append_left _ mem)
    rw [eraseDupsBy_insert mem (hself a ha), ih]

end Repeats

/-! ### Lists with the same members -/

/-- Lists with the same elements are empty together. -/
theorem isEmpty_congr {l l' : List α} (h : ∀ a, a ∈ l ↔ a ∈ l') : l.isEmpty = l'.isEmpty := by
  rw [Bool.eq_iff_iff, List.isEmpty_iff, List.isEmpty_iff, List.eq_nil_iff_forall_not_mem,
    List.eq_nil_iff_forall_not_mem]
  exact forall_congr' fun a => not_congr (h a)

/-- Lists with the same elements have the same ones behind a filter. -/
theorem mem_filter_congr {l l' : List α} (h : ∀ a, a ∈ l ↔ a ∈ l') (p : α → Bool) (a : α) :
    a ∈ l.filter p ↔ a ∈ l'.filter p := by
  rw [List.mem_filter, List.mem_filter, h a]

/-! ### Steps in turn -/

/-- A step for each element of a list, behind the elements before it. -/
def inTurn (step : α → List α → Except ε Unit) (earlier : List α) : List α → Except ε Unit
  | [] => .ok ()
  | a :: rest => do
    step a earlier
    inTurn step (earlier ++ [a]) rest

/-- Whether a step looks only at which elements came before. -/
def SeesMembers (step : α → List α → Except ε Unit) : Prop :=
  ∀ a earlier earlier', (∀ b, b ∈ earlier ↔ b ∈ earlier') → step a earlier = step a earlier'

variable {step : α → List α → Except ε Unit}

/-- Steps for two lists, one behind the other. -/
theorem inTurn_append (earlier l more : List α) :
    inTurn step earlier (l ++ more) =
      (inTurn step earlier l).bind fun _ => inTurn step (earlier ++ l) more := by
  induction l generalizing earlier with
  | nil => rw [List.append_nil]; rfl
  | cons a l ih =>
    rw [List.cons_append, inTurn, inTurn]
    cases step a earlier with
    | error e => rfl
    | ok _ =>
      have hrest := ih (earlier ++ [a])
      rw [List.append_assoc, List.singleton_append] at hrest
      exact hrest

/-- Steps that see members only do not tell lists with the same ones apart. -/
theorem inTurn_congr (hsees : SeesMembers step) {earlier earlier' : List α}
    (h : ∀ b, b ∈ earlier ↔ b ∈ earlier') (l : List α) :
    inTurn step earlier l = inTurn step earlier' l := by
  induction l generalizing earlier earlier' with
  | nil => rfl
  | cons a l ih =>
    have hnext : ∀ b, b ∈ earlier ++ [a] ↔ b ∈ earlier' ++ [a] := by
      intro b
      rw [List.mem_append, List.mem_append, h b]
    rw [inTurn, inTurn, hsees a earlier earlier' h, ih hnext]

/-- Where all steps succeed, there is one for each element. -/
theorem exists_step_of_inTurn {earlier l : List α} (h : inTurn step earlier l = .ok ()) {a : α}
    (ha : a ∈ l) : ∃ before, step a before = .ok () := by
  induction l generalizing earlier with
  | nil => cases ha
  | cons b l ih =>
    rw [inTurn] at h
    cases hstep : step b earlier with
    | error e =>
      rw [hstep] at h
      cases h
    | ok _ =>
      rw [hstep] at h
      rcases List.mem_cons.1 ha with rfl | ha
      · exact ⟨earlier, hstep⟩
      · exact ih h ha

/-- **Copies change nothing** where a step looks only at which elements came before, and where what
succeeded for an element succeeds again behind it. -/
theorem inTurn_repeats (hsees : SeesMembers step) {l l' : List α} (h : Repeats l l')
    (hagain : ∀ a ∈ l, ∀ before earlier, step a before = .ok () → a ∈ earlier →
      step a earlier = .ok ()) : inTurn step [] l' = inTurn step [] l := by
  induction h with
  | same => rfl
  | @again before after a mem rest ih =>
    rw [← ih, inTurn_append, inTurn_append]
    cases hbefore : inTurn step [] before with
    | error e => rfl
    | ok _ =>
      have ha : a ∈ l := (rest.mem_iff a).1 (List.mem_append_left _ mem)
      obtain ⟨seen, hseen⟩ := exists_step_of_inTurn hbefore mem
      have hcopy : step a ([] ++ before) = .ok () := hagain a ha seen _ hseen mem
      -- behind the copy the same elements came before
      have hsame : ∀ b, b ∈ [] ++ before ++ [a] ↔ b ∈ [] ++ before := by
        intro b
        rw [List.mem_append, List.mem_singleton]
        exact or_iff_left_of_imp fun hb => hb ▸ mem
      show inTurn step ([] ++ before) (a :: after) = inTurn step ([] ++ before) after
      rw [inTurn, hcopy]
      exact inTurn_congr hsees hsame after

end QueryForest
