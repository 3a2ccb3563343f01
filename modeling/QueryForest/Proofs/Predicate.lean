import QueryForest.Proofs.Sql.Slots

namespace QueryForest

/-!
# The text of a predicate

A predicate is written with one mark per condition, and its text is read again to give each mark a
value. Field names may hold anything but a backslash; operators no marks and no quotes.

* `Predicate.Plain` — the predicates whose text is read the way it is meant;
* `Predicate.segmentsText_induction` — what holds of words and conditions, and of one text behind
  another, holds of the text of a predicate, also beside a predicate with changed conditions;
* `Predicate.bound_compiled` — no mark misses its value and no character changes;
* `Predicate.fits_clause` — the `WHERE` clause can be written, and its marks stand for the values of
  the conditions, in order.
-/

/-- A field name without a backslash, and an operator without marks and quotes. -/
def Condition.Plain (c : Condition) : Prop := '\\' ∉ c.field.toList ∧ Sql.Bare c.operator.toList

instance : DecidablePred Condition.Plain := fun c =>
  inferInstanceAs (Decidable ('\\' ∉ c.field.toList ∧ Sql.Bare c.operator.toList))

/-- The mark of a condition, behind its field and operator. -/
def Condition.slot (c : Condition) : Sql.Slot :=
  ⟨Sql.quotePath c.field.toList ++ ' ' :: c.operator.toList ++ [' '], c.value.toScalar⟩

/-- All conditions of a predicate, in order. -/
def Predicate.conditions (p : Predicate) : List Condition := p.segments.flatMap Segment.conditions

/-- Only plain conditions. -/
def Predicate.Plain (p : Predicate) : Prop := ∀ c ∈ p.conditions, c.Plain

instance : DecidablePred Predicate.Plain := fun p =>
  inferInstanceAs (Decidable (∀ c ∈ p.conditions, c.Plain))

/-- The marks of a predicate. -/
def Predicate.slots (p : Predicate) : List Sql.Slot := p.conditions.map Condition.slot

/-! ### One condition -/

namespace Condition

/-- The mark behind the operator takes the value of the condition, if the field name is settled and
the operator is bare. -/
theorem takes_text {c : Condition} (hfield : Sql.SettledPath c.field.toList)
    (hoperator : Sql.Bare c.operator.toList) : Sql.Takes .plain c.text [c.value] .plain := by
  obtain ⟨t, ht, hpath⟩ := Sql.takes_quotePath (α := BindValue) hfield
  have hspace := Sql.takes_char (α := BindValue) t (c := ' ') (.inl (by decide))
  rw [ht.step (by decide)] at hspace
  have hword := hspace.append (Sql.takes_bare hoperator)
  exact (hpath.append hword).append (Sql.takes_mark c.value)

/-- What stands in front of the mark of a plain condition has no open mark and cuts no identifier.
-/
theorem closed_lead {c : Condition} (h : c.Plain) : Sql.Closed c.slot.lead := by
  have hspace : Sql.Closed [' '] := Sql.closed_bare (by decide)
  have hword := hspace.append (Sql.closed_bare h.2)
  exact ((Sql.closed_quotePath c.field.toList).append hword).append hspace

/-- A plain condition has one open mark, its own. -/
theorem reads_text {c : Condition} (h : c.Plain) : Sql.Reads c.text [c.slot] := by
  have htext : c.text = c.slot.lead ++ ['?'] := by
    unfold text slot
    rw [List.append_assoc _ [' '], List.singleton_append]
  rw [htext]
  exact Sql.reads_mark c.slot (closed_lead h)

end Condition

/-! ### All segments -/

/-- `AND` and `OR` with their blanks mean nothing inside a quoted run or outside of one. -/
theorem Segment.neutral_separator (s : Segment) : Sql.Neutral s.separator := by
  unfold separator
  cases s.connective with
  | and => decide
  | or => decide

/-- A segment whose conditions are changed one by one. -/
def Segment.map (f : Condition → Condition) (s : Segment) : Segment :=
  ⟨s.connective, s.conditions.map f⟩

@[simp] theorem Segment.separator_map (f : Condition → Condition) (s : Segment) :
    (s.map f).separator = s.separator := rfl

@[simp] theorem Segment.conditions_map (f : Condition → Condition) (s : Segment) :
    (s.map f).conditions = s.conditions.map f := rfl

namespace Predicate

/-- A predicate whose conditions are changed one by one. -/
def map (f : Condition → Condition) (p : Predicate) : Predicate := ⟨p.segments.map (Segment.map f)⟩

section Induction

variable {R : List Char → List Char → List Condition → Prop} {f : Condition → Condition}

/-- A relation that holds of a separator, of the empty text and of every condition, and of one text
behind another, holds of the conditions with separators between them. -/
theorem intercalate_induction {sep : List Char} (hsep : R sep sep []) (nil : R [] [] [])
    (append : ∀ a a' b b' x y, R a a' x → R b b' y → R (a ++ b) (a' ++ b') (x ++ y))
    {conditions : List Condition} (h : ∀ c ∈ conditions, R c.text (f c).text [c]) :
    R (List.intercalate sep (conditions.map Condition.text))
      (List.intercalate sep ((conditions.map f).map Condition.text)) conditions := by
  induction conditions with
  | nil => exact nil
  | cons c rest ih =>
    have hc := h c List.mem_cons_self
    have hrest := ih fun d hd => h d (List.mem_cons_of_mem c hd)
    cases rest with
    | nil => simpa using hc
    | cons next rest =>
      simp only [List.map_cons, List.intercalate_cons_cons]
      exact append _ _ _ _ _ _ (append _ _ _ _ _ _ hc hsep) hrest

/-- The same for the text of one segment, in brackets or not. -/
theorem text_induction (word : ∀ text, Sql.Neutral text → R text text [])
    (append : ∀ a a' b b' x y, R a a' x → R b b' y → R (a ++ b) (a' ++ b') (x ++ y))
    (grouped : Bool) {s : Segment} (h : ∀ c ∈ s.conditions, R c.text (f c).text [c]) :
    R (s.text grouped) ((s.map f).text grouped) s.conditions := by
  have hbody :=
    intercalate_induction (word _ s.neutral_separator) (word [] (by decide)) append h
  unfold Segment.text
  rw [Segment.separator_map, Segment.conditions_map, List.length_map]
  split
  · have hopen : R ['('] ['('] [] := word _ (by decide)
    have hclose : R [')'] [')'] [] := word _ (by decide)
    have hall := append _ _ _ _ _ _ (append _ _ _ _ _ _ hopen hbody) hclose
    simpa using hall
  · exact hbody

/-- What holds of words and of the conditions before and after a change, and of one text behind
another, holds of all segments before and after it. -/
theorem segmentsText_induction (word : ∀ text, Sql.Neutral text → R text text [])
    (append : ∀ a a' b b' x y, R a a' x → R b b' y → R (a ++ b) (a' ++ b') (x ++ y))
    (grouped : Bool) {segments : List Segment}
    (h : ∀ s ∈ segments, ∀ c ∈ s.conditions, R c.text (f c).text [c]) :
    R (segmentsText grouped segments) (segmentsText grouped (segments.map (Segment.map f)))
      (segments.flatMap Segment.conditions) := by
  induction segments with
  | nil => exact word [] (by decide)
  | cons s rest ih =>
    have hs := text_induction word append grouped (h s List.mem_cons_self)
    have hrest := ih fun r hr => h r (List.mem_cons_of_mem s hr)
    rw [List.flatMap_cons]
    cases rest with
    | nil =>
      rw [List.flatMap_nil, List.append_nil]
      exact hs
    | cons next rest =>
      have hsep := append _ _ _ _ _ _ hs (word _ s.neutral_separator)
      rw [List.append_nil] at hsep
      exact append _ _ _ _ _ _ hsep hrest

end Induction

variable {p : Predicate}

/-- The values of a predicate are those of its conditions, in order. -/
theorem values_eq (p : Predicate) : p.values = p.conditions.map Condition.value := by
  unfold values conditions
  rw [List.map_flatMap]
  rfl

/-- A condition of a plain predicate is plain. -/
theorem Plain.condition (h : p.Plain) {s : Segment} (hs : s ∈ p.segments) {c : Condition}
    (hc : c ∈ s.conditions) : c.Plain := h c (List.mem_flatMap.mpr ⟨s, hs, hc⟩)

/-- The marks of a plain predicate take its values, in order. -/
theorem takes_segmentsText (h : p.Plain) (grouped : Bool) :
    Sql.Takes .plain (segmentsText grouped p.segments) p.values .plain := by
  rw [values_eq]
  refine segmentsText_induction (f := id)
    (R := fun text _ conditions => Sql.Takes .plain text (conditions.map Condition.value) .plain)
    (fun _ htext => Sql.takes_bare htext.bare) (fun a _ b _ x y ha hb => ?_) grouped
    (fun s hs c hc => ?_)
  · rw [List.map_append]
    exact ha.append hb
  · have hc := h.condition hs hc
    exact Condition.takes_text (Sql.settledPath_of_not_mem hc.1) hc.2

/-- The open marks of a plain predicate are those of its conditions, in order. -/
theorem reads_segmentsText (h : p.Plain) (grouped : Bool) :
    Sql.Reads (segmentsText grouped p.segments) p.slots := by
  refine segmentsText_induction (f := id)
    (R := fun text _ conditions => Sql.Reads text (conditions.map Condition.slot))
    (fun _ htext => .done (Sql.closed_bare htext.bare)) (fun a _ b _ x y ha hb => ?_) grouped
    (fun s hs c hc => Condition.reads_text (h.condition hs hc))
  rw [List.map_append]
  exact ha.append hb

/-- Every mark gets its value, and the text is sent as it was written. -/
theorem bound_compiled (h : p.Plain) (grouped : Bool) :
    Sql.Fragment.bound ⟨segmentsText grouped p.segments, p.values⟩ =
      .ok ⟨segmentsText grouped p.segments, p.values⟩ :=
  Sql.bound_of_takes (takes_segmentsText h grouped)

/-- A predicate that counts as empty has no conditions. -/
theorem conditions_of_isEmpty (h : p.isEmpty = true) : p.conditions = [] := by
  rw [isEmpty, List.isEmpty_iff] at h
  rw [conditions, h]
  rfl

/-- A predicate that counts as empty has no `WHERE` clause. -/
theorem clause_of_isEmpty (h : p.isEmpty = true) : p.clause = .ok (.ofText []) := by
  unfold clause compile?
  rw [h]
  rfl

/-- The clause of a predicate is its text behind a word, with the marks filled. -/
theorem clause_of_isEmpty_eq_false (h : p.isEmpty = false) : p.clause =
    (Sql.Fragment.bound ⟨segmentsText (1 < p.segments.length) p.segments, p.values⟩).map
      (Sql.Fragment.ofString " WHERE " ++ ·) := by
  unfold clause compile?
  rw [h]
  rfl

/-- **The `WHERE` clause.** It can be written, and its marks stand for the values of the conditions
in order. -/
theorem fits_clause (h : p.Plain) : ∃ a, p.clause = .ok a ∧ a.Fits p.slots := by
  cases hempty : p.isEmpty with
  | true =>
    have hslots : p.slots = [] := by
      rw [slots, conditions_of_isEmpty hempty]
      rfl
    rw [hslots, clause_of_isEmpty hempty]
    exact ⟨_, rfl, Sql.Fragment.fits_ofText Sql.closed_nil⟩
  | false =>
    rw [clause_of_isEmpty_eq_false hempty, bound_compiled h]
    refine ⟨_, rfl, ?_⟩
    have hword : (Sql.Fragment.ofString " WHERE ").Fits [] :=
      Sql.Fragment.fits_ofText (Sql.closed_bare (by decide))
    refine hword.append ⟨reads_segmentsText h _, ?_⟩
    show p.values.map BindValue.toScalar = p.slots.map Sql.Slot.bound
    rw [values_eq]
    unfold slots
    rw [List.map_map, List.map_map]
    rfl

/-- The clause brings the values of the conditions and no others. -/
theorem values_clause (h : p.Plain) {a : Sql.Fragment} (ha : p.clause = .ok a) :
    a.values = p.values := by
  cases hempty : p.isEmpty with
  | true =>
    rw [clause_of_isEmpty hempty] at ha
    cases ha
    rw [values_eq, conditions_of_isEmpty hempty]
    rfl
  | false =>
    rw [clause_of_isEmpty_eq_false hempty, bound_compiled h] at ha
    cases ha
    rfl

end Predicate

end QueryForest
