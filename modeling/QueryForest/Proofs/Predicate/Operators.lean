import Mathlib.Algebra.Order.BigOperators.Group.List
import Mathlib.Algebra.Order.Ring.Nat
import QueryForest.Proofs.Predicate
import QueryForest.Proofs.Sql.Filling

namespace QueryForest

/-!
# Operators with question marks

An operator is written into the text as it stands, so that its question marks are marks like the
one of the condition. Two of them in a row are sent as one and take nothing; a run of odd length
takes a value more than there is.

* `Condition.Quoteless` — the conditions whose names and operators open no quoted run that hides the
  mark of the condition;
* `Condition.halved` — the condition as it is sent;
* `Condition.fills_text` — the operator takes a value for each odd run, and the mark behind it one;
* `Predicate.clause_eq_error_iff` — the clause cannot be written exactly if there is an odd run;
* `Predicate.clause_eq_ok` — otherwise it has all values, and the text of the halved conditions.
-/

open Sql (Fills Scan SettledPath)

/-! ### One condition -/

/-- A field name without a backslash, and an operator without quotes. -/
def Condition.Quoteless (c : Condition) : Prop :=
  '\\' ∉ c.field.toList ∧ Sql.Unquoted c.operator.toList

instance : DecidablePred Condition.Quoteless := fun c =>
  inferInstanceAs (Decidable ('\\' ∉ c.field.toList ∧ Sql.Unquoted c.operator.toList))

namespace Condition

/-- The condition with one question mark for every two in a row in its operator. -/
def halved (c : Condition) : Condition :=
  { c with operator := String.ofList (QueryForest.halved '?' c.operator.toList) }

/-- How many values the operator takes. -/
def surplus (c : Condition) : Nat := unpaired '?' c.operator.toList

variable {c : Condition}

/-- An operator takes a value exactly if it has an odd run of question marks. -/
theorem surplus_ne_zero_iff (c : Condition) :
    c.surplus ≠ 0 ↔ ∃ after, OddRun '?' c.operator.toList after :=
  unpaired_ne_zero_iff '?' c.operator.toList

/-- The mark of a condition stands behind a space, so that it makes no pair with the operator. -/
theorem fills_text (h : c.Quoteless) :
    Fills .plain c.text (c.surplus + 1) c.halved.text .plain := by
  obtain ⟨t, ht, hpath⟩ :=
    Sql.takes_quotePath (α := BindValue) (Sql.settledPath_of_not_mem h.1)
  -- the space between the operator and the mark keeps them from meeting
  have hmark := (Sql.takes_mark c.value).fills
  have hall := (hpath.fills.append (Sql.fills_unquoted ht h.2)).append hmark
  have hsent : c.halved.text = Sql.quotePath c.field.toList ++
      ' ' :: QueryForest.halved '?' c.operator.toList ++ [' ', '?'] := by
    unfold text halved
    rw [String.toList_ofList]
  simp only [List.length_nil, List.length_singleton, Nat.zero_add] at hall
  rw [hsent]
  exact hall

end Condition

/-! ### All conditions -/

namespace Predicate

variable {p : Predicate}

/-- How many values the operators take. -/
def surplus (p : Predicate) : Nat := (p.conditions.map Condition.surplus).sum

/-- The text of the halved conditions is sent; it takes a value for each condition, and as many as
their operators take. -/
theorem fills_segmentsText (h : ∀ c ∈ p.conditions, c.Quoteless) (grouped : Bool) :
    Fills .plain (segmentsText grouped p.segments) (p.surplus + p.conditions.length)
      (segmentsText grouped (p.map Condition.halved).segments) .plain := by
  refine segmentsText_induction (f := Condition.halved)
    (R := fun text sent conditions => Fills .plain text
      ((conditions.map Condition.surplus).sum + conditions.length) sent .plain)
    (fun text htext => (Sql.takes_bare (α := Char) htext.bare).fills)
    (fun a a' b b' x y ha hb => ?_) grouped (fun s hs c hc => ?_)
  · have hsum : ((x ++ y).map Condition.surplus).sum + (x ++ y).length =
        (x.map Condition.surplus).sum + x.length + ((y.map Condition.surplus).sum + y.length) := by
      rw [List.map_append, List.sum_append, List.length_append]
      omega
    rw [hsum]
    exact ha.append hb
  · have hcondition := Condition.fills_text (h c (List.mem_flatMap.2 ⟨s, hs, hc⟩))
    simpa using hcondition

/-- The clause of a predicate with question marks in its operators. -/
theorem clause_eq_of_quoteless (hempty : p.isEmpty = false)
    (h : ∀ c ∈ p.conditions, c.Quoteless) :
    p.clause = if p.surplus = 0 then
        .ok ⟨" WHERE ".toList ++
          segmentsText (1 < p.segments.length) (p.map Condition.halved).segments, p.values⟩
      else .error .unboundPlaceholder := by
  have hlength : p.values.length = p.conditions.length := by
    rw [values_eq, List.length_map]
  rw [clause_of_isEmpty_eq_false hempty, (fills_segmentsText h _).bound, hlength]
  by_cases hsurplus : p.surplus = 0
  · rw [if_pos hsurplus, if_pos (by omega), List.take_of_length_le (by omega)]
    rfl
  · rw [if_neg hsurplus, if_neg (by omega)]
    rfl

/-- The operators of a predicate take a value exactly if one of them has an odd run of question
marks. -/
theorem surplus_ne_zero_iff (p : Predicate) :
    p.surplus ≠ 0 ↔ ∃ c ∈ p.conditions, ∃ after, OddRun '?' c.operator.toList after := by
  simp only [← Condition.surplus_ne_zero_iff]
  rw [surplus, ne_eq, List.sum_eq_zero_iff]
  simp only [List.mem_map, forall_exists_index, and_imp, forall_apply_eq_imp_iff₂, not_forall,
    exists_prop, ne_eq]

/-- **An odd run.** The clause cannot be written exactly if an operator has an odd run of question
marks. -/
theorem clause_eq_error_iff (hempty : p.isEmpty = false) (h : ∀ c ∈ p.conditions, c.Quoteless) :
    p.clause = .error .unboundPlaceholder ↔
      ∃ c ∈ p.conditions, ∃ after, OddRun '?' c.operator.toList after := by
  rw [clause_eq_of_quoteless hempty h, ← surplus_ne_zero_iff]
  by_cases hsurplus : p.surplus = 0
  · simp [hsurplus]
  · simp [hsurplus]

/-- Without an odd run it has all values, and the text of the halved conditions. -/
theorem clause_eq_ok (hempty : p.isEmpty = false) (h : ∀ c ∈ p.conditions, c.Quoteless)
    (hodd : ¬ ∃ c ∈ p.conditions, ∃ after, OddRun '?' c.operator.toList after) :
    ∃ compiled, (p.map Condition.halved).compile? = some compiled ∧
      p.clause = .ok ⟨" WHERE ".toList ++ compiled.text, p.values⟩ := by
  rw [← surplus_ne_zero_iff, not_not] at hodd
  refine ⟨⟨segmentsText (1 < p.segments.length) (p.map Condition.halved).segments,
    (p.map Condition.halved).values⟩, ?_, ?_⟩
  · have hempty' : (p.map Condition.halved).isEmpty = false := by
      unfold map isEmpty at *
      simpa using hempty
    have hlength : (p.map Condition.halved).segments.length = p.segments.length :=
      List.length_map _
    rw [compile?, hempty', hlength]
    rfl
  · rw [clause_eq_of_quoteless hempty h, if_pos hodd]

end Predicate

end QueryForest
