import QueryForest.Proofs.Calendar.Date

namespace QueryForest

/-!
# Times that are read back

A clock has a second of its own, second 60, for a leap second at the end of a minute. In a leap
second elsewhere it shows the second after it, and that one is read back.

* `TimeOfDay.shown` — the time that is read back, `TimeOfDay.shown_eq_iff` says when it is the same;
* `DateTime.instant_injective` — different dates and times on UTC are different points in time;
* `Calendar.looseDateTime_text` — the text of a date and time is read back in the loose form;
* `Calendar.strict_text` — and in the strict form, with an offset behind it and a year of four
  digits.
-/

namespace TimeOfDay

/-! ### Leap seconds -/

/-- The time that a clock shows as the given one: the second behind, if it is in a leap second that
does not end a minute, and else the time itself. -/
def shown (t : TimeOfDay) : TimeOfDay :=
  if h : 1000000000 ≤ t.nanosecond ∧ t.second ≠ 59 then
    ⟨t.hour, t.minute, t.second + 1, t.nanosecond - 1000000000, by have := t.in_range; omega⟩
  else t

/-- A time is shown as it is unless it is in a leap second elsewhere than at the end of a minute. -/
theorem shown_eq_iff (t : TimeOfDay) :
    t.shown = t ↔ (1000000000 ≤ t.nanosecond → t.second = 59) := by
  unfold shown
  split
  · next h =>
    refine iff_of_false (fun heq => ?_) fun hlast => h.2 (hlast h.1)
    exact Nat.succ_ne_self _ (congrArg second heq)
  · next h => exact iff_of_true rfl fun hleap => Decidable.not_not.1 fun hne => h ⟨hleap, hne⟩

/-- The second passes into the next, and the nanoseconds go on from there. -/
theorem secondOfDay_shown (t : TimeOfDay) :
    t.shown.secondOfDay * 1000000000 + t.shown.nanosecond =
      t.secondOfDay * 1000000000 + t.nanosecond := by
  unfold shown secondOfDay
  split
  · dsimp only
    omega
  · rfl

/-- The fields of such a time give it again. -/
theorem ofHms?_fields (t : TimeOfDay) (h : 1000000000 ≤ t.nanosecond → t.second = 59) :
    ofHms? t.hour t.minute t.second t.nanosecond = some t := by
  unfold ofHms?
  rw [dif_pos t.in_range, if_pos h]

/-- What a clock shows is read as the time that it shows. -/
theorem ofClock?_clock (t : TimeOfDay) :
    ofClock? t.hour t.minute t.clockSecond t.clockNanosecond = some t.shown := by
  have hrange := t.in_range
  unfold ofClock? clockSecond clockNanosecond shown
  by_cases hleap : 1000000000 ≤ t.nanosecond
  · rw [if_pos hleap, if_pos hleap]
    by_cases hlast : t.second = 59
    · -- second 60
      rw [if_pos (by omega), dif_neg fun h => h.2 hlast, Nat.sub_add_cancel hleap, ← hlast]
      exact ofHms?_fields t fun _ => hlast
    · -- the second after the leap second
      rw [if_neg (by omega), dif_pos ⟨hleap, hlast⟩]
      exact ofHms?_fields ⟨t.hour, t.minute, t.second + 1, t.nanosecond - 1000000000, by omega⟩
        fun h => absurd h (by dsimp only; omega)
  · rw [if_neg hleap, if_neg hleap, if_neg (by omega), dif_neg fun h => hleap h.1]
    exact ofHms?_fields t fun h => absurd h hleap

/-- What a clock shows has two digits each, and the fraction is below a second. -/
theorem clock_bounds (t : TimeOfDay) :
    t.hour < 100 ∧ t.minute < 100 ∧ t.clockSecond < 100 ∧ t.clockNanosecond < 1000000000 := by
  have hrange := t.in_range
  unfold clockSecond clockNanosecond
  split <;> omega

/-- The second of the day and the fraction of a second tell the time. -/
theorem secondOfDay_injective {t u : TimeOfDay} (h : t.secondOfDay = u.secondOfDay)
    (hnanosecond : t.nanosecond = u.nanosecond) : t = u := by
  have hrange := t.in_range
  have hrange' := u.in_range
  unfold secondOfDay at h
  have hhour : t.hour = u.hour := by omega
  have hminute : t.minute = u.minute := by omega
  have hsecond : t.second = u.second := by omega
  cases t
  cases u
  cases hhour
  cases hminute
  cases hsecond
  cases hnanosecond
  rfl

/-- A day has 86400 seconds. -/
theorem secondOfDay_lt (t : TimeOfDay) : t.secondOfDay < 86400 := by
  have hrange := t.in_range
  unfold secondOfDay
  omega

end TimeOfDay

/-! ### Points in time -/

/-- The date and time that clocks show as the given one. -/
def DateTime.shown (t : DateTime) : DateTime := ⟨t.date, t.time.shown⟩

/-- A date and time is shown as it is unless its time is not. -/
theorem DateTime.shown_eq_iff (t : DateTime) :
    t.shown = t ↔ (1000000000 ≤ t.time.nanosecond → t.time.second = 59) := by
  rw [← t.time.shown_eq_iff]
  exact ⟨congrArg DateTime.time, fun h => congrArg (DateTime.mk t.date) h⟩

/-- **Different dates and times on UTC are different points in time.** -/
theorem DateTime.instant_injective : Function.Injective DateTime.instant := by
  intro t u h
  have hseconds : t.date.dayNumber * 86400 + t.time.secondOfDay - 0 =
      u.date.dayNumber * 86400 + u.time.secondOfDay - 0 := congrArg Instant.seconds h
  have hnanosecond : t.time.nanosecond = u.time.nanosecond := congrArg Instant.nanosecond h
  have hlt := t.time.secondOfDay_lt
  have hlt' := u.time.secondOfDay_lt
  have hday : t.date.dayNumber = u.date.dayNumber := by omega
  have hsecond : t.time.secondOfDay = u.time.secondOfDay := by omega
  cases t
  cases u
  rw [DateTime.mk.injEq]
  exact ⟨Date.dayNumber_injective hday, TimeOfDay.secondOfDay_injective hsecond hnanosecond⟩

/-- The nanoseconds from the start of 1970, where a leap second counts as the one after it. -/
def Instant.nanoseconds (i : Instant) : Int := i.seconds * 1000000000 + i.nanosecond

/-- A clock does not show another point of that count. -/
theorem DateTime.nanoseconds_shown (t : DateTime) :
    t.shown.instant.nanoseconds = t.instant.nanoseconds := by
  have htime := t.time.secondOfDay_shown
  show (t.date.dayNumber * 86400 + t.time.shown.secondOfDay - 0) * 1000000000 +
      t.time.shown.nanosecond =
    (t.date.dayNumber * 86400 + t.time.secondOfDay - 0) * 1000000000 + t.time.nanosecond
  omega

/-! ### Texts in front of others -/

open Digits in
/-- The parts of the text of a time, in front of a rest. -/
theorem TimeOfDay.text_append (t : TimeOfDay) (rest : List Char) :
    t.text ++ rest = fixed 2 t.hour ++ ':' :: (fixed 2 t.minute ++ ':' :: (fixed 2 t.clockSecond ++
      (fractionText t.clockNanosecond ++ rest))) := by
  simp [TimeOfDay.text]

open Digits in
/-- The parts of the text of a date and time, in front of a rest. -/
theorem DateTime.textWith_append (separator : Char) (t : DateTime) (rest : List Char) :
    t.textWith separator ++ rest = yearText t.date.year ++ '-' :: (fixed 2 t.date.month ++
      '-' :: (fixed 2 t.date.day ++ separator :: (t.time.text ++ rest))) := by
  simp [DateTime.textWith, Date.text]

namespace Calendar

open Digits

/-! ### Fractions of a second -/

/-- What follows a time does not go on with it. -/
structure EndsTime (rest : List Char) : Prop where
  noDigit : NoDigitAhead rest
  noPoint : rest.head? ≠ some '.'

/-- A time may end with the text. -/
theorem EndsTime.nil : EndsTime [] := ⟨noDigitAhead_nil, by simp⟩

/-- No digits are dropped where none is ahead. -/
theorem dropWhile_isDigit {rest : List Char} (h : NoDigitAhead rest) :
    rest.dropWhile Char.isDigit = rest := by
  cases rest with
  | nil => rfl
  | cons c rest => exact List.dropWhile_cons_of_neg (by simp [h c rfl])

/-- A fraction of up to nine digits is read in nanoseconds. -/
theorem fraction_fixed {width n : Nat} {rest : List Char} (hwidth : 1 ≤ width ∧ width ≤ 9)
    (hn : n < 10 ^ width) (hrest : NoDigitAhead rest) :
    fraction (fixed width n ++ rest) = some (n * 10 ^ (9 - width), rest) := by
  have hspan : span 9 (fixed width n ++ rest) = (fixed width n, rest) :=
    span_append (fun _ => isDigit_of_mem_fixed) (by rw [length_fixed]; exact hwidth.2) (.inr hrest)
  have hsome : (fixed width n).isEmpty = false := by
    obtain ⟨c, ds, heq, -⟩ := exists_fixed_eq_cons hwidth.1 n
    rw [heq, List.isEmpty_cons]
  unfold fraction
  rw [hspan]
  dsimp only
  rw [hsome, value_fixed, Nat.mod_eq_of_lt hn, length_fixed, dropWhile_isDigit hrest]
  rfl

/-- **A fraction is read back**, whatever its number of digits. -/
theorem optionalFraction_text {nanosecond : Nat} {rest : List Char} (h : nanosecond < 1000000000)
    (hrest : EndsTime rest) :
    optionalFraction (fractionText nanosecond ++ rest) = some (nanosecond, rest) := by
  have hfraction : ∀ width n, (1 ≤ width ∧ width ≤ 9) → n < 10 ^ width →
      n * 10 ^ (9 - width) = nanosecond →
      optionalFraction ('.' :: fixed width n ++ rest) = some (nanosecond, rest) := by
    intro width n hwidth hn heq
    show fraction (fixed width n ++ rest) = _
    rw [fraction_fixed hwidth hn hrest.noDigit, heq]
  unfold fractionText
  split
  · next hzero =>
    -- no point is written, and none follows
    subst hzero
    unfold optionalFraction
    split
    · next heq => exact absurd (congrArg List.head? heq) hrest.noPoint
    · rfl
  · split
    · exact hfraction 3 _ (by decide) (by omega) (by omega)
    · split
      · exact hfraction 6 _ (by decide) (by omega) (by omega)
      · exact hfraction 9 _ (by decide) (by omega) (by omega)

/-! ### The loose form -/

/-- **A time of day is read back** as the clock shows it. -/
theorem looseTime_text (t : TimeOfDay) {rest : List Char} (hrest : EndsTime rest) :
    looseTime (t.text ++ rest) = some (t.shown, rest) := by
  obtain ⟨hhour, hminute, hsecond, hnanosecond⟩ := t.clock_bounds
  rw [TimeOfDay.text_append]
  refine bind_of_some (looseNumber_fixed hhour _) ?_
  refine bind_of_some (literal_cons _ _) ?_
  refine bind_of_some (looseNumber_fixed hminute _) ?_
  refine bind_of_some (literal_cons _ _) ?_
  refine bind_of_some (looseNumber_fixed hsecond _) ?_
  refine bind_of_some (optionalFraction_text hnanosecond hrest) ?_
  exact bind_of_some t.ofClock?_clock rfl

/-- **A date and time is read back** in the loose form, as clocks show it. -/
theorem looseDateTime_text (t : DateTime) : looseDateTime t.text = some t.shown := by
  have htime : skipBlank (' ' :: t.time.text) = t.time.text := by
    show skipBlank t.time.text = t.time.text
    rw [← List.append_nil t.time.text, TimeOfDay.text_append]
    exact skipBlank_fixed (by decide) _ _
  have hread := looseTime_text t.time EndsTime.nil
  rw [List.append_nil] at hread
  refine bind_of_some (looseDate_text t.date _) ?_
  dsimp only
  rw [htime]
  exact bind_of_some hread rfl

/-! ### The strict form -/

/-- Two digits are read as the number that they write. -/
theorem take?_two {n : Nat} (hn : n < 100) (rest : List Char) :
    take? 2 2 (fixed 2 n ++ rest) = some (n, rest) :=
  take?_fixed hn (Nat.le_refl 2) (Nat.le_refl 2) (.inl rfl)

/-- **A date and time with an offset is read back** in the strict form, as clocks show it, if its
year has four digits. -/
theorem strict_text {t : DateTime} (hyear : 0 ≤ t.date.year ∧ t.date.year ≤ 9999) {separator : Char}
    (hseparator : separator = 'T' ∨ separator = 't' ∨ separator = ' ') {zone : List Char}
    (hzone : EndsTime zone) :
    strict (t.textWith separator ++ zone) =
      (offset zone).bind fun (seconds, rest) =>
        if rest.isEmpty then some (t.shown.instantAt seconds) else none := by
  obtain ⟨hhour, hminute, hsecond, hnanosecond⟩ := t.time.clock_bounds
  have hmonth : t.date.month < 100 := by have := t.date.month_bounds; omega
  have hday : t.date.day < 100 := by have := t.date.day_le; omega
  have hread : ∀ rest, take? 4 4 (fixed 4 t.date.year.toNat ++ rest) =
      some (t.date.year.toNat, rest) := fun rest =>
    take?_fixed (by omega) (Nat.le_refl 4) (Nat.le_refl 4) (.inl rfl)
  have hdate : Date.ofYmd? t.date.year.toNat t.date.month t.date.day = some t.date := by
    rw [Int.toNat_of_nonneg hyear.1, Date.ofYmd?_fields]
  have hbetween : ∀ rest, dateTimeSeparator (separator :: rest) = some rest := fun rest =>
    if_pos hseparator
  rw [DateTime.textWith_append, yearText_of_short hyear, TimeOfDay.text_append]
  refine bind_of_some (hread _) ?_
  refine bind_of_some (literal_cons _ _) ?_
  refine bind_of_some (take?_two hmonth _) ?_
  refine bind_of_some (literal_cons _ _) ?_
  refine bind_of_some (take?_two hday _) ?_
  refine bind_of_some (hbetween _) ?_
  refine bind_of_some (take?_two hhour _) ?_
  refine bind_of_some (literal_cons _ _) ?_
  refine bind_of_some (take?_two hminute _) ?_
  refine bind_of_some (literal_cons _ _) ?_
  refine bind_of_some (take?_two hsecond _) ?_
  refine bind_of_some (optionalFraction_text hnanosecond hzone) ?_
  -- what is left depends on the offset alone
  simp only [hdate, t.time.ofClock?_clock]
  rfl

/-- A year with a sign is not read in the strict form. -/
theorem strict_eq_none {t : DateTime} (hyear : ¬ (0 ≤ t.date.year ∧ t.date.year ≤ 9999))
    (separator : Char) (zone : List Char) : strict (t.textWith separator ++ zone) = none := by
  have hread : ∀ rest, take? 4 4 (yearText t.date.year ++ rest) = none := by
    intro rest
    -- the text starts with the sign
    refine take?_eq_none (by decide) fun c hc => ?_
    unfold yearText at hc
    rw [if_neg hyear, List.cons_append, List.head?_cons, Option.some_inj] at hc
    rw [← hc]
    split <;> rfl
  rw [DateTime.textWith_append]
  exact bind_of_none (hread _)

end Calendar

end QueryForest
