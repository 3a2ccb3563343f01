import QueryForest.Calendar.Parser
import QueryForest.Calendar.Printer
import QueryForest.Proofs.Data.Step
import QueryForest.Proofs.Text.Digits

namespace QueryForest

/-!
# Dates that are read back

* `Date.dayNumber_injective` — different days have different numbers;
* `Calendar.looseDate_text` — the text of a date is read back in the loose form, whatever follows;
* `readDate?_text` — the same to the end of the text.
-/

/-! ### Days and their numbers -/

/-- No month has more than 31 days. -/
theorem daysInMonth_le (year : Int) (month : Nat) : daysInMonth year month ≤ 31 := by
  unfold daysInMonth
  split <;> try split
  all_goals decide

/-- Only the months from the first to the twelfth have days. -/
theorem month_of_daysInMonth_pos {year : Int} {month : Nat} (h : 0 < daysInMonth year month) :
    1 ≤ month ∧ month ≤ 12 := by
  unfold daysInMonth at h
  split at h
  all_goals first
    | decide
    | exact absurd h (by decide)

namespace Date

/-- The month of a day is one of twelve. -/
theorem month_bounds (d : Date) : 1 ≤ d.month ∧ d.month ≤ 12 :=
  month_of_daysInMonth_pos (Nat.lt_of_lt_of_le d.day_exists.1 d.day_exists.2)

/-- The day of a month is at most the 31st. -/
theorem day_le (d : Date) : d.day ≤ 31 := Nat.le_trans d.day_exists.2 (daysInMonth_le _ _)

/-- The days before a month are those before the last one and its own. -/
theorem daysBeforeMonth_succ (year : Int) (month : Nat) :
    daysBeforeMonth year (month + 2) =
      daysBeforeMonth year (month + 1) + daysInMonth year (month + 1) := by
  unfold daysBeforeMonth
  rw [Nat.add_sub_cancel, Nat.add_succ_sub_one, List.range_succ, List.map_append, List.foldl_append]
  rfl

/-- A month ends before a later one begins. -/
theorem daysBeforeMonth_of_lt (year : Int) {m n : Nat} (hm : 1 ≤ m) (h : m < n) :
    daysBeforeMonth year m + daysInMonth year m ≤ daysBeforeMonth year n := by
  obtain ⟨m, rfl⟩ := Nat.exists_eq_add_of_le' hm
  obtain ⟨k, rfl⟩ := Nat.exists_eq_add_of_lt h
  -- on the number of months between the two
  induction k with
  | zero => exact Nat.le_of_eq (daysBeforeMonth_succ year m).symm
  | succ k ih =>
    have hnext := daysBeforeMonth_succ year (m + 1 + k)
    have hrest := ih (by omega)
    show _ ≤ daysBeforeMonth year (m + 1 + k + 2)
    omega

/-- The days before a year are those before the last one and its own, which are those before a
thirteenth month. -/
theorem daysBeforeYear_succ (year : Int) :
    daysBeforeYear (year + 1) = daysBeforeYear year + daysBeforeMonth year 13 := by
  have hlength : daysBeforeMonth year 13 = if isLeapYear year then 366 else 365 := by
    cases hleap : isLeapYear year <;>
      simp [daysBeforeMonth, List.range, List.range.loop, daysInMonth, hleap]
  rw [hlength]
  unfold daysBeforeYear isLeapYear
  split
  · next h =>
    simp only [Bool.and_eq_true, Bool.or_eq_true, decide_eq_true_eq] at h
    dsimp only
    omega
  · next h =>
    simp only [Bool.and_eq_true, Bool.or_eq_true, decide_eq_true_eq] at h
    dsimp only
    omega

/-- A year ends before a later one begins. -/
theorem daysBeforeYear_of_lt {y z : Int} (h : y < z) :
    daysBeforeYear y + daysBeforeMonth y 13 ≤ daysBeforeYear z := by
  rw [← daysBeforeYear_succ]
  unfold daysBeforeYear
  dsimp only
  omega

/-- Days follow each other as their years, months and days of the month do. -/
theorem dayNumber_lt {d e : Date}
    (h : d.year < e.year ∨ d.year = e.year ∧
      (d.month < e.month ∨ d.month = e.month ∧ d.day < e.day)) :
    d.dayNumber < e.dayNumber := by
  have hday := d.day_exists
  have hday' := e.day_exists
  unfold dayNumber
  -- the first of the three parts that differ decides: what is behind it stays within a year or month
  rcases h with h | ⟨hy, h | ⟨hm, h⟩⟩
  · have hyear := daysBeforeYear_of_lt h
    have hmonth : _ ≤ daysBeforeMonth d.year 13 :=
      daysBeforeMonth_of_lt d.year d.month_bounds.1 (Nat.lt_succ_of_le d.month_bounds.2)
    omega
  · have hmonth := daysBeforeMonth_of_lt d.year d.month_bounds.1 h
    rw [← hy]
    omega
  · rw [← hy, ← hm]
    omega

/-- **Different days have different numbers.** -/
theorem dayNumber_injective : Function.Injective dayNumber := by
  intro d e h
  have hnot : ∀ {a b : Date}, a.dayNumber = b.dayNumber → ¬ (a.year < b.year ∨ a.year = b.year ∧
      (a.month < b.month ∨ a.month = b.month ∧ a.day < b.day)) := fun heq hlt =>
    absurd (dayNumber_lt hlt) (by omega)
  have hde := hnot h
  have hed := hnot h.symm
  have hyear : d.year = e.year := by omega
  have hmonth : d.month = e.month := by omega
  have hday : d.day = e.day := by omega
  cases d
  cases e
  cases hyear
  cases hmonth
  cases hday
  rfl

end Date

/-! ### Years -/

/-- A year of at most four digits is written with four. -/
theorem yearText_of_short {year : Int} (h : 0 ≤ year ∧ year ≤ 9999) :
    yearText year = Digits.fixed 4 year.toNat := if_pos h

namespace Calendar

open Digits

/-- A year that starts with a digit has up to four of them. -/
theorem looseYear_of_isDigit {c : Char} (hc : c.isDigit = true) (cs : List Char) :
    looseYear (c :: cs) = (take? 1 4 (c :: cs)).map fun (n, rest) => ((n : Int), rest) := by
  unfold looseYear
  rw [skipBlank_cons (isBlank_of_isDigit hc)]
  split
  · next heq =>
    cases heq
    exact absurd hc (by decide)
  · next heq =>
    cases heq
    exact absurd hc (by decide)
  · rfl

/-- A year with a minus is read with any number of digits. -/
theorem looseYear_minus (cs : List Char) :
    looseYear ('-' :: cs) = (take? 1 cs.length cs).map fun (n, rest) => (-(n : Int), rest) := rfl

/-- A year with a plus is read with any number of digits. -/
theorem looseYear_plus (cs : List Char) :
    looseYear ('+' :: cs) = (take? 1 cs.length cs).map fun (n, rest) => ((n : Int), rest) := rfl

/-- Any number of digits is read where none follows. -/
theorem take?_fixed_all {width n : Nat} {rest : List Char} (hwidth : 1 ≤ width)
    (hn : n < 10 ^ width) (hrest : NoDigitAhead rest) :
    take? 1 (fixed width n ++ rest).length (fixed width n ++ rest) = some (n, rest) := by
  refine take?_fixed hn hwidth ?_ (.inr hrest)
  rw [List.length_append, length_fixed]
  exact Nat.le_add_right _ _

/-- **A year is read back** with its sign and all its digits. -/
theorem looseYear_text (year : Int) {rest : List Char} (hrest : NoDigitAhead rest) :
    looseYear (yearText year ++ rest) = some (year, rest) := by
  by_cases h : 0 ≤ year ∧ year ≤ 9999
  · -- four digits without a sign, which is also the most that the reader takes
    rw [yearText_of_short h]
    have hread : take? 1 4 (fixed 4 year.toNat ++ rest) = some (year.toNat, rest) :=
      take?_fixed (by omega) (by decide) (Nat.le_refl 4) (.inl rfl)
    obtain ⟨c, ds, heq, hc⟩ := exists_fixed_eq_cons (show 0 < 4 by decide) year.toNat
    rw [heq, List.cons_append] at hread ⊢
    rw [looseYear_of_isDigit hc, hread]
    exact congrArg (fun y => some (y, rest)) (Int.toNat_of_nonneg h.1)
  · -- behind a sign the reader takes all digits there are
    have hn : year.natAbs < 10 ^ max 4 (digitCount year.natAbs) :=
      Nat.lt_of_lt_of_le (lt_pow_digitCount _)
        (Nat.pow_le_pow_right (by decide) (Nat.le_max_right _ _))
    have hread := take?_fixed_all (Nat.le_trans (by decide) (Nat.le_max_left 4 _)) hn hrest
    unfold yearText
    rw [if_neg h]
    -- a minus in front of negative years, a plus in front of those with more than four digits
    split
    · have habs : -(year.natAbs : Int) = year := by omega
      rw [List.cons_append, looseYear_minus, hread]
      exact congrArg (fun y => some (y, rest)) habs
    · have habs : (year.natAbs : Int) = year := by omega
      rw [List.cons_append, looseYear_plus, hread]
      exact congrArg (fun y => some (y, rest)) habs

/-! ### Dates -/

/-- Two digits are read back, whatever follows. -/
theorem looseNumber_fixed {n : Nat} (hn : n < 100) (rest : List Char) :
    looseNumber (fixed 2 n ++ rest) = some (n, rest) := by
  unfold looseNumber
  rw [skipBlank_fixed (by decide)]
  exact take?_fixed hn (by decide) (Nat.le_refl 2) (.inl rfl)

/-- A character that is expected is consumed. -/
@[simp] theorem literal_cons (c : Char) (rest : List Char) : literal c (c :: rest) = some rest :=
  if_pos rfl

/-- **A date is read back** from its text, whatever follows. -/
theorem looseDate_text (d : Date) (rest : List Char) :
    looseDate (d.text ++ rest) = some (d, rest) := by
  have htext : d.text ++ rest =
      yearText d.year ++ '-' :: (fixed 2 d.month ++ '-' :: (fixed 2 d.day ++ rest)) := by
    simp [Date.text]
  have hmonth : d.month < 100 := by have := d.month_bounds; omega
  have hday : d.day < 100 := by have := d.day_le; omega
  rw [htext]
  refine bind_of_some (looseYear_text d.year (noDigitAhead_cons (by decide) _)) ?_
  refine bind_of_some (literal_cons _ _) ?_
  refine bind_of_some (looseNumber_fixed hmonth _) ?_
  refine bind_of_some (literal_cons _ _) ?_
  refine bind_of_some (looseNumber_fixed hday _) ?_
  exact bind_of_some (Date.ofYmd?_fields d) rfl

end Calendar

/-- The text of a date is the text of that date only. -/
theorem readDate?_text (d : Date) : readDate? d.text = some d := by
  have hread := Calendar.looseDate_text d []
  rw [List.append_nil] at hread
  exact bind_of_some hread rfl

end QueryForest
