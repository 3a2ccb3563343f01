import Mathlib.Data.List.TakeWhile
import QueryForest.Proofs.Predicate
import QueryForest.Proofs.Sql.Hiding

namespace QueryForest

/-!
# Conditions whose marks are hidden

A condition takes its value at the mark behind its operator, as long as all names up to there are
closed. Behind the first name that is not, every such mark stands within a quoted run and takes
nothing, while question marks of the names may be read outside of one and take a value instead.

* `Predicate.seen` and `Predicate.hidden` — the conditions in front of the first name that is not
  closed, and the others;
* `Predicate.strays` — how many question marks in the names of the hidden conditions take a value;
* `Condition.level_run_text` — behind a condition the reading is as at the start or within a run;
* `Predicate.counts_segmentsText` — a predicate takes a value for each seen condition and each
  stray;
* `Predicate.clause_eq` — what becomes of its clause.
-/

/-- Where the reading may stand between two conditions. -/
def Sql.Scan.Level (s : Sql.Scan) : Prop := s = .plain ∨ s.Within

open Sql (Scan Counts Neutral SettledPath scan marksAlong)

/-! ### One condition -/

namespace Condition

/-- The name of the field as it is written. -/
def fieldText (c : Condition) : List Char := Sql.quotePath c.field.toList

variable {c : Condition} {s : Scan}

theorem text_eq (c : Condition) :
    c.text = c.fieldText ++ (' ' :: c.operator.toList ++ [' ', '?']) := List.append_assoc ..

/-- Behind a name that is not closed, the operator and the mark are hidden. -/
theorem counts_text_of_within (hoperator : Neutral c.operator.toList)
    (h : (s.run c.fieldText).Within) :
    unpaired .mark (scan s c.text) = unpaired .mark (scan s c.fieldText) ∧
      s.run c.text = s.run c.fieldText := by
  have hrest : Counts (s.run c.fieldText) (' ' :: c.operator.toList ++ [' ', '?']) 0
      (s.run c.fieldText) := by
    refine h.counts fun d hd => ?_
    simp only [List.cons_append, List.mem_cons, List.mem_append, List.not_mem_nil, or_false] at hd
    rcases hd with rfl | hd | rfl | rfl
    · exact ⟨by unfold Scan.IsClosing; decide, by decide⟩
    · exact hoperator.not_isClosing d hd
    · exact ⟨by unfold Scan.IsClosing; decide, by decide⟩
    · exact ⟨by unfold Scan.IsClosing; decide, by decide⟩
  rw [text_eq, Sql.scan_append, unpaired_append hrest.first, hrest.marks, Scan.run_append,
    hrest.run]
  exact ⟨rfl, rfl⟩

/-- Behind a condition the reading is as at the start, or within a quoted run. -/
theorem level_run_text (hoperator : Neutral c.operator.toList) (h : s.Level) :
    (s.run c.text).Level := by
  rcases h with rfl | hwithin
  · by_cases hfield : SettledPath c.field.toList
    · exact .inl (takes_text hfield hoperator.bare).run
    · have hpath := Sql.within_of_not_settledPath hfield
      rw [(counts_text_of_within hoperator hpath).2]
      exact .inr hpath
  · have hpath := hwithin.quotePath c.field.toList
    rw [(counts_text_of_within hoperator hpath).2]
    exact .inr hpath

/-- The marks of a condition are counted from whatever state its text is read. -/
theorem counts_text (c : Condition) (s : Scan) :
    Counts s c.text (unpaired .mark (scan s c.text)) (s.run c.text) where
  run := rfl
  first := by
    rw [text_eq, Sql.scan_append]
    refine Sql.head?_append_ne_mark (Sql.head?_scan_quotePath s c.field.toList) ?_
    simp [scan]
  marks := rfl

/-- Within a quoted run only the names of conditions can take values. -/
theorem marksAlong_text {conditions : List Condition}
    (hoperator : ∀ c ∈ conditions, Neutral c.operator.toList) (h : s.Within) :
    marksAlong s (conditions.map text) = marksAlong s (conditions.map fieldText) := by
  induction conditions generalizing s with
  | nil => rfl
  | cons c rest ih =>
    have hpath : (s.run c.fieldText).Within := h.quotePath c.field.toList
    obtain ⟨hmarks, hrun⟩ := counts_text_of_within (hoperator c List.mem_cons_self) hpath
    rw [List.map_cons, List.map_cons, marksAlong, marksAlong, hmarks, hrun,
      ih (fun d hd => hoperator d (List.mem_cons_of_mem c hd)) hpath]

end Condition

/-! ### All conditions -/

namespace Predicate

/-- The conditions in front of the first name that is not closed. -/
def seen (p : Predicate) : List Condition :=
  p.conditions.takeWhile fun c => SettledPath c.field.toList

/-- The first condition with a name that is not closed, and all behind it. -/
def hidden (p : Predicate) : List Condition :=
  p.conditions.dropWhile fun c => SettledPath c.field.toList

/-- How many question marks in the names of the hidden conditions take a value. -/
def strays (p : Predicate) : Nat := marksAlong .plain (p.hidden.map Condition.fieldText)

variable {p : Predicate}

/-- The seen conditions and the hidden ones are all conditions, in order. -/
theorem seen_append_hidden (p : Predicate) : p.seen ++ p.hidden = p.conditions :=
  List.takeWhile_append_dropWhile

/-- Nothing is hidden exactly if every field name is settled. -/
theorem hidden_eq_nil_iff : p.hidden = [] ↔ ∀ c ∈ p.conditions, SettledPath c.field.toList := by
  simp [hidden]

/-- Where nothing is hidden, no mark in a name takes a value. -/
theorem strays_eq_zero_of_hidden (h : p.hidden = []) : p.strays = 0 := by
  rw [strays, h]
  rfl

/-- Names without question marks take no values. -/
theorem strays_eq_zero_of_not_mem (h : ∀ c ∈ p.conditions, '?' ∉ c.field.toList) :
    p.strays = 0 := by
  refine Sql.marksAlong_eq_zero (fun text htext => ?_) .plain
  obtain ⟨c, hc, rfl⟩ := List.mem_map.1 htext
  exact Sql.mark_not_mem_quotePath (h c ((List.dropWhile_suffix _).subset hc))

/-- With neutral operators, the seen conditions take one value each, and the hidden ones take a
value for each mark in their field names. -/
theorem marksAlong_conditions {conditions : List Condition}
    (h : ∀ c ∈ conditions, Neutral c.operator.toList) :
    marksAlong .plain (conditions.map Condition.text) =
      (conditions.takeWhile fun c => SettledPath c.field.toList).length +
        marksAlong .plain ((conditions.dropWhile fun c => SettledPath c.field.toList).map
          Condition.fieldText) := by
  induction conditions with
  | nil => rfl
  | cons c rest ih =>
    have hrest := ih fun d hd => h d (List.mem_cons_of_mem c hd)
    have hoperator := h c List.mem_cons_self
    by_cases hfield : SettledPath c.field.toList
    · -- the mark of the condition takes one value, and the reading is as at the start again
      have htext := (Condition.takes_text hfield hoperator.bare).fills
      rw [List.map_cons, marksAlong, htext.marks, htext.run, hrest,
        List.takeWhile_cons_of_pos (by simpa using hfield),
        List.dropWhile_cons_of_pos (by simpa using hfield)]
      simp only [List.length_cons, List.length_nil]
      omega
    · -- from here on only names are counted
      have hpath : (Scan.plain.run c.fieldText).Within := Sql.within_of_not_settledPath hfield
      obtain ⟨hmarks, hrun⟩ := Condition.counts_text_of_within hoperator hpath
      rw [List.takeWhile_cons_of_neg (by simpa using hfield),
        List.dropWhile_cons_of_neg (by simpa using hfield), List.map_cons, List.map_cons,
        marksAlong, marksAlong, hmarks, hrun,
        Condition.marksAlong_text (fun d hd => h d (List.mem_cons_of_mem c hd)) hpath,
        List.length_nil, Nat.zero_add]

/-- A predicate takes one value for each seen condition and one for each stray. -/
theorem counts_segmentsText (h : ∀ c ∈ p.conditions, Neutral c.operator.toList) (grouped : Bool) :
    ∃ t, Counts .plain (segmentsText grouped p.segments) (p.seen.length + p.strays) t := by
  -- words stand between the conditions, and they leave the reading where it is
  have hall : ∀ s : Scan, s.Level →
      Counts s (segmentsText grouped p.segments) (marksAlong s (p.conditions.map Condition.text))
          (s.run (p.conditions.map Condition.text).flatten) ∧
        (s.run (p.conditions.map Condition.text).flatten).Level := by
    refine segmentsText_induction (f := id)
      (R := fun text _ conditions => ∀ s : Scan, s.Level →
        Counts s text (marksAlong s (conditions.map Condition.text))
            (s.run (conditions.map Condition.text).flatten) ∧
          (s.run (conditions.map Condition.text).flatten).Level)
      (fun text htext s hs => ?_) (fun a _ b _ x y ha hb s hs => ?_) grouped
      (fun segment hsegment c hc s hs => ?_)
    · refine ⟨?_, hs⟩
      rcases hs with rfl | hwithin
      · exact (Sql.takes_bare (α := Char) htext.bare).fills.toCounts
      · exact hwithin.counts htext.not_isClosing
    · -- the second text is read where the first one leads, which is a state of the same sort
      obtain ⟨hcounts, hlevel⟩ := ha s hs
      obtain ⟨hnext, hend⟩ := hb _ hlevel
      rw [List.map_append, Sql.marksAlong_append, List.flatten_append, Scan.run_append]
      exact ⟨hcounts.append hnext, hend⟩
    · have hoperator := h c (List.mem_flatMap.2 ⟨segment, hsegment, hc⟩)
      have hcounts := c.counts_text s
      have hlevel := Condition.level_run_text hoperator hs
      simpa [marksAlong] using And.intro hcounts hlevel
  have hcounts := (hall .plain (.inl rfl)).1
  rw [marksAlong_conditions h] at hcounts
  exact ⟨_, hcounts⟩

/-- **The clause of a predicate with hidden conditions.** It takes the first values, one for each
seen condition and one for each stray, and cannot be written if there are more strays than hidden
conditions. -/
theorem clause_eq (h : ∀ c ∈ p.conditions, Neutral c.operator.toList) :
    ∃ text, p.clause = if p.strays ≤ p.hidden.length then
        .ok ⟨text, (p.conditions.take (p.seen.length + p.strays)).map Condition.value⟩
      else .error .unboundPlaceholder := by
  cases hempty : p.isEmpty with
  | true =>
    have hconditions := conditions_of_isEmpty hempty
    have hhidden : p.hidden = [] := by
      rw [hidden, hconditions]
      rfl
    refine ⟨[], ?_⟩
    rw [clause_of_isEmpty hempty, strays_eq_zero_of_hidden hhidden, if_pos (Nat.zero_le _),
      hconditions, List.take_nil]
    rfl
  | false =>
    -- there are as many values as conditions, seen and hidden ones
    obtain ⟨t, hcounts⟩ := counts_segmentsText h (1 < p.segments.length)
    obtain ⟨sent, hbound⟩ := hcounts.bound p.values
    have hlength := congrArg List.length (seen_append_hidden p)
    rw [List.length_append] at hlength
    refine ⟨" WHERE ".toList ++ sent, ?_⟩
    rw [clause_of_isEmpty_eq_false hempty, hbound, values_eq, List.length_map]
    by_cases hle : p.strays ≤ p.hidden.length
    · rw [if_pos hle, if_pos (by omega), List.map_take]
      rfl
    · rw [if_neg hle, if_neg (by omega)]
      rfl

end Predicate

end QueryForest
