import QueryForest.Proofs.Calendar.Time
import QueryForest.Proofs.Store.ReadBack

namespace QueryForest

/-!
# Dates and times come back

A date or a time is sent as text, and a point in time or a date is read from text. A text without an
offset is read in the loose form, which has years of any length; a text with one is read in the
strict form, which has years of four digits only.

* `readInstant?_text`, `readInstant?_utcText` — what is read from the two texts of a date and time;
* `BindValue.Fetched` — what a field gives that holds a bind value, or what was stored for it;
* `BindValue.fetched_naive` — dates and times without an offset come back as clocks show them;
* `BindValue.fetched_utc_iff` — times on UTC come back exactly in years of four digits.
-/

/-! ### What is read from a text -/

/-- The strict form needs an offset, and does not take a date and time without one for another. -/
theorem strict_text_eq_none (t : DateTime) : Calendar.strict t.text = none := by
  unfold DateTime.text
  rw [← List.append_nil (t.textWith ' ')]
  by_cases hyear : 0 ≤ t.date.year ∧ t.date.year ≤ 9999
  · -- all is read but the offset, which is missing
    rw [Calendar.strict_text hyear (.inr (.inr rfl)) Calendar.EndsTime.nil]
    rfl
  · exact Calendar.strict_eq_none hyear ' ' []

/-- The text of a date and time is read as the point in time that it shows. -/
theorem readInstant?_text (t : DateTime) : readInstant? t.text = some t.shown.instant := by
  unfold readInstant?
  rw [strict_text_eq_none, Calendar.looseDateTime_text]
  rfl

/-- Nothing is read in the loose form where a letter stands between date and time. -/
theorem looseDateTime_utcText (t : DateTime) : Calendar.looseDateTime t.utcText = none := by
  have htext : t.utcText = t.date.text ++ 'T' :: (t.time.text ++ "+00:00".toList) := by
    simp [DateTime.utcText, DateTime.textWith]
  have hletter : ∀ rest, Calendar.looseTime (skipBlank ('T' :: rest)) = none := by
    intro rest
    have hnumber : Calendar.looseNumber ('T' :: rest) = none :=
      Digits.take?_eq_none (by decide) (Digits.noDigitAhead_cons rfl rest)
    rw [Digits.skipBlank_cons rfl]
    exact bind_of_none hnumber
  rw [htext]
  exact bind_of_some (Calendar.looseDate_text t.date _) (bind_of_none (hletter _))

/-- **A text on UTC** is read exactly if its year has four digits. -/
theorem readInstant?_utcText (t : DateTime) :
    readInstant? t.utcText =
      if 0 ≤ t.date.year ∧ t.date.year ≤ 9999 then some t.shown.instant else none := by
  unfold readInstant?
  rw [looseDateTime_utcText]
  unfold DateTime.utcText
  split
  · next hyear =>
    have hzone : Calendar.EndsTime "+00:00".toList :=
      ⟨Digits.noDigitAhead_cons (by decide) _, by decide⟩
    rw [Calendar.strict_text hyear (.inl rfl) hzone]
    rfl
  · next hyear =>
    rw [Calendar.strict_eq_none hyear]
    rfl

/-- A leap second at the end of a day is read as one. -/
example : readInstant? "2016-12-31T23:59:60.5+00:00".toList = some ⟨1483228799, 1500000000⟩ := by
  decide

/-! ### What a field gives -/

/-- What reading a field gives that holds a bind value: as it is sent, and as a table gives it into
which it was inserted. -/
def BindValue.Fetched (b : BindValue) (type : FieldType)
    (result : String → Except FetchError FieldValue) : Prop :=
  ∃ sent found, b.toScalar? = some sent ∧ StoredAs b found ∧
    ∀ (record : Record) field,
      record.get? field = some sent ∨ record.get? field = some found →
        type.fetch record field = result field

/-- A value that is sent as a text gives what is read from the text. -/
theorem BindValue.fetched_iff {b : BindValue} {sent : Scalar} {s : String}
    (hsent : b.toScalar? = some sent) (hstored : sent.toStored = .text s.toUTF8.data.toList)
    {type : FieldType} (hread : ∀ field, type.read field sent = type.read field (.text (some s)))
    {result : String → Except FetchError FieldValue} :
    b.Fetched type result ↔ ∀ field, type.read field (.text (some s)) = result field := by
  constructor
  · rintro ⟨_, found, _, hfound, hfetch⟩ field
    rw [storedAs_text_iff hsent hstored] at hfound
    obtain ⟨record, hget⟩ := Record.exists_get? field found
    rw [← hfetch record field (.inr hget), FieldType.fetch_of_get? hget, hfound]
  · intro h
    refine ⟨sent, _, hsent, (storedAs_text_iff hsent hstored).2 rfl, fun record field hget => ?_⟩
    rcases hget with hget | hget
    · rw [FieldType.fetch_of_get? hget, hread, h]
    · rw [FieldType.fetch_of_get? hget, h]

/-- Where a day is expected, a text is a day or an error. -/
theorem FieldType.read_date (field s : String) :
    FieldType.date.read field (.text (some s)) =
      match readDate? s.toList with
      | some day => .ok (.date day)
      | none => .error (.notADate field s) := by
  show Except.map FieldValue.date (match readDate? s.toList with
    | some day => .ok day
    | none => .error (FetchError.notADate field s)) = _
  cases readDate? s.toList <;> rfl

/-- Where a point in time is expected, a text is one or an error. -/
theorem FieldType.read_instant (field s : String) :
    FieldType.instant.read field (.text (some s)) =
      match readInstant? s.toList with
      | some point => .ok (.instant point)
      | none => .error (.notAnInstant field s) := by
  show Except.map FieldValue.instant (match readInstant? s.toList with
    | some point => .ok point
    | none => .error (FetchError.notAnInstant field s)) = _
  cases readInstant? s.toList <;> rfl

section Fetched

variable {result : String → Except FetchError FieldValue}

/-- A day is fetched as the same day. -/
theorem BindValue.fetched_date_iff {d : Date} :
    (date (some d)).Fetched .date result ↔ ∀ field, .ok (.date d) = result field := by
  have hsent : (date (some d)).toScalar? = some (.date (some (String.ofList d.text))) := rfl
  rw [fetched_iff hsent rfl fun _ => rfl]
  simp only [FieldType.read_date, String.toList_ofList, readDate?_text]

/-- A date and time is fetched as the point in time that its text shows. -/
theorem BindValue.fetched_dateTime_iff {t : DateTime} :
    (dateTime (some t)).Fetched .instant result ↔
      ∀ field, .ok (.instant t.shown.instant) = result field := by
  have hsent : (dateTime (some t)).toScalar? = some (.timestamp (some (String.ofList t.text))) := rfl
  rw [fetched_iff hsent rfl fun _ => rfl]
  simp only [FieldType.read_instant, String.toList_ofList, readInstant?_text]

/-- A date and time on UTC is fetched in years of at most four digits, and refused in others. -/
theorem BindValue.fetched_utcDateTime_iff {t : DateTime} :
    (utcDateTime (some t)).Fetched .instant result ↔
      ∀ field, (if 0 ≤ t.date.year ∧ t.date.year ≤ 9999 then .ok (.instant t.shown.instant)
        else .error (.notAnInstant field (String.ofList t.utcText))) = result field := by
  have hsent : (utcDateTime (some t)).toScalar? =
      some (.timestamp (some (String.ofList t.utcText))) := rfl
  rw [fetched_iff hsent rfl fun _ => rfl]
  simp only [FieldType.read_instant, String.toList_ofList, readInstant?_utcText]
  by_cases hyear : 0 ≤ t.date.year ∧ t.date.year ≤ 9999
  · simp only [if_pos hyear]
  · simp only [if_neg hyear]

end Fetched

/-- **Dates and times without an offset come back.** A date comes back as itself. The text of a date
and time is never taken for one with an offset, and it comes back as the point on UTC at which
clocks show the same, which is the very date and time unless that is in a leap second elsewhere than
at the end of a minute. -/
theorem BindValue.fetched_naive (d : Date) (t : DateTime) :
    (∀ e : Date, (date (some d)).Fetched .date (fun _ => .ok (.date e)) ↔ e = d) ∧
    Calendar.strict t.text = none ∧
    (∀ u : DateTime, (dateTime (some t)).Fetched .instant (fun _ => .ok (.instant u.instant)) ↔
      u = t.shown) ∧
    (t.shown = t ↔ (1000000000 ≤ t.time.nanosecond → t.time.second = 59)) := by
  refine ⟨fun e => ?_, strict_text_eq_none t, fun u => ?_, t.shown_eq_iff⟩
  · rw [fetched_date_iff, forall_const, Except.ok.injEq, FieldValue.date.injEq]
    exact eq_comm
  · rw [fetched_dateTime_iff, forall_const, Except.ok.injEq, FieldValue.instant.injEq,
      DateTime.instant_injective.eq_iff]
    exact eq_comm

/-- A leap second amid a minute, a third of it over. -/
def DateTime.leapAmid : DateTime :=
  ⟨⟨2024, 1, 15, by decide, by decide⟩, ⟨10, 30, 45, 1333333333, by decide⟩⟩

/-- That leap second has the text of the second after it, and does not come back. -/
theorem DateTime.not_fetched_leapAmid :
    ¬ (BindValue.dateTime (some leapAmid)).Fetched .instant
      (fun _ => .ok (.instant leapAmid.instant)) ∧
    leapAmid.text = "2024-01-15 10:30:46.333333333".toList := by
  refine ⟨fun h => ?_, by decide⟩
  rw [BindValue.fetched_dateTime_iff, forall_const, Except.ok.injEq, FieldValue.instant.injEq] at h
  exact absurd h (by decide)

/-- **Times on UTC come back in years of four digits.** In these years the point in time comes back,
and as the same date and time unless that is in a leap second elsewhere than at the end of a minute.
In all other years the text is refused. -/
theorem BindValue.fetched_utc_iff (t : DateTime) :
    ((∃ i : Instant, i.nanoseconds = t.instant.nanoseconds ∧
        (utcDateTime (some t)).Fetched .instant fun _ => .ok (.instant i)) ↔
      0 ≤ t.date.year ∧ t.date.year ≤ 9999) ∧
    ((utcDateTime (some t)).Fetched .instant (fun _ => .ok (.instant t.instant)) ↔
      (0 ≤ t.date.year ∧ t.date.year ≤ 9999) ∧
        (1000000000 ≤ t.time.nanosecond → t.time.second = 59)) ∧
    ((utcDateTime (some t)).Fetched .instant
        (fun field => .error (.notAnInstant field (String.ofList t.utcText))) ↔
      ¬ (0 ≤ t.date.year ∧ t.date.year ≤ 9999)) := by
  simp only [fetched_utcDateTime_iff]
  by_cases hyear : 0 ≤ t.date.year ∧ t.date.year ≤ 9999
  · simp only [if_pos hyear, forall_const, Except.ok.injEq, FieldValue.instant.injEq, reduceCtorEq]
    refine ⟨iff_of_true ⟨t.shown.instant, t.nanoseconds_shown, rfl⟩ hyear, ?_,
      iff_of_false id fun h => h hyear⟩
    rw [DateTime.instant_injective.eq_iff, t.shown_eq_iff]
    exact (and_iff_right hyear).symm
  · simp only [if_neg hyear, forall_const, reduceCtorEq, and_false, exists_false]
    exact ⟨iff_of_false id hyear, iff_of_false id fun h => hyear h.1, iff_of_true trivial hyear⟩

/-- The first day with a year of five digits, at midnight. -/
def DateTime.firstOfTenThousand : DateTime :=
  ⟨⟨10000, 1, 1, by decide, by decide⟩, ⟨0, 0, 0, 0, by decide⟩⟩

/-- That midnight on UTC is refused where it is read, whatever it should be. -/
theorem DateTime.not_fetched_firstOfTenThousand :
    ¬ ∃ v, (BindValue.utcDateTime (some firstOfTenThousand)).Fetched .instant fun _ => .ok v := by
  rintro ⟨v, h⟩
  have hlong : ¬ (0 ≤ firstOfTenThousand.date.year ∧ firstOfTenThousand.date.year ≤ 9999) := by
    decide
  simp only [BindValue.fetched_utcDateTime_iff, if_neg hlong] at h
  cases h ""

end QueryForest
