import QueryForest.Proofs.Statement.Conditions
import QueryForest.Proofs.Statement.Insertion

namespace QueryForest

/-!
# Why a statement is not built

A statement is refused for the plan of its joins, or else for a value that no database has. The
values are converted in the order of their placeholders, and the first one that cannot be converted
is the one that is reported.

* `BindValue.Unrepresented` — the kinds of values that no database has, NULL or not;
* `scalarsOf_eq_error` — the first of them among some values is their error;
* `Statement.configured` and `Statement.counts` — the values of a statement in the order of its
  placeholders: those that were configured, and numbers of rows;
* `Statement.build_reports` — which error there is, and when there is none.
-/

/-! ### Values that no database has -/

/-- A date and time with an offset of its own or in the zone of the machine, NULL or not. -/
def BindValue.Unrepresented : BindValue → Prop
  | zonedDateTime _ | localDateTime _ => True
  | _ => False

namespace BindValue

/-- A value has no database value exactly if it is of a kind that the database lacks. -/
theorem toScalar?_eq_none_iff {value : BindValue} :
    value.toScalar? = none ↔ value.Unrepresented := by
  cases value <;> simp [toScalar?, Unrepresented]

instance : DecidablePred Unrepresented := fun _ =>
  decidable_of_iff _ (Option.isNone_iff_eq_none.trans toScalar?_eq_none_iff)

/-- The same, for the values that have one. -/
theorem isSome_toScalar?_iff {value : BindValue} :
    value.toScalar?.isSome = true ↔ ¬ value.Unrepresented := by
  rw [Option.isSome_iff_ne_none, ne_eq, toScalar?_eq_none_iff]

/-- A value of such a kind is refused with its description. -/
theorem toScalar_eq_error {value : BindValue} (h : value.Unrepresented) :
    value.toScalar = .error (.unsupportedValue (String.ofList value.description)) := by
  unfold toScalar
  rw [toScalar?_eq_none_iff.2 h]

end BindValue

/-- **The first value that no database has** is the error of a list of values. -/
theorem scalarsOf_eq_error {before : List BindValue} (hbefore : ∀ v ∈ before, ¬ v.Unrepresented)
    {value : BindValue} (hvalue : value.Unrepresented) (after : List BindValue) :
    scalarsOf (before ++ value :: after) =
      .error (.unsupportedValue (String.ofList value.description)) := by
  induction before with
  | nil =>
    show (value :: after).mapM BindValue.toScalar = _
    rw [List.mapM_cons, BindValue.toScalar_eq_error hvalue]
    rfl
  | cons first rest ih =>
    have hfirst := BindValue.isSome_toScalar?_iff.2 (hbefore first List.mem_cons_self)
    obtain ⟨scalar, hscalar⟩ := Option.isSome_iff_exists.1 hfirst
    have hrest := ih fun v hv => hbefore v (List.mem_cons_of_mem first hv)
    unfold scalarsOf at hrest
    show (first :: (rest ++ value :: after)).mapM BindValue.toScalar = _
    rw [List.mapM_cons, BindValue.toScalar_eq_ok.2 hscalar, hrest]
    rfl

/-- The first value without a database value is the one that is reported. -/
theorem Sql.Fragment.toQuery_eq_error {a : Sql.Fragment} {before after : List BindValue}
    {value : BindValue} (ha : a.values = before ++ value :: after)
    (hbefore : ∀ v ∈ before, ¬ v.Unrepresented) (hvalue : value.Unrepresented) :
    a.toQuery =
      .error (.configuration (.unsupportedValue (String.ofList value.description))) := by
  unfold toQuery
  rw [ha, scalarsOf_eq_error hbefore hvalue]

/-- Among some values there is a first one that no database has, if there is one at all. -/
theorem exists_first_unrepresented {values : List BindValue} (h : ∃ v ∈ values, v.Unrepresented) :
    ∃ before value after, values = before ++ value :: after ∧
      (∀ v ∈ before, ¬ v.Unrepresented) ∧ value.Unrepresented := by
  obtain ⟨v, hv, hunrepresented⟩ := h
  have hsome : (values.find? fun v => v.Unrepresented).isSome = true :=
    List.find?_isSome.2 ⟨v, hv, decide_eq_true hunrepresented⟩
  obtain ⟨value, hvalue⟩ := Option.isSome_iff_exists.1 hsome
  obtain ⟨hfirst, before, after, heq, hbefore⟩ := List.find?_eq_some_iff_append.1 hvalue
  refine ⟨before, value, after, heq, fun u hu => ?_, of_decide_eq_true hfirst⟩
  simpa using hbefore u hu

/-! ### The values of a statement -/

namespace Statement

/-- The values that were configured: of fields that are set, then of conditions. -/
def configured : Statement → List BindValue
  | select s => s.predicate.values
  | insert s => s.fields.values
  | update s => s.fields.values ++ s.predicate.values
  | delete s => s.predicate.values

/-- The numbers of rows of a selection, which stand behind its conditions. -/
def counts : Statement → List BindValue
  | select s => (s.sentLimit.toList ++ s.skippedRows.toList).map fun n => .bigUnsigned (some n)
  | insert _ | update _ | delete _ => []

/-- The values of a statement are those that were configured and then the numbers of rows. -/
theorem values_around (t : Statement) (planned : List PlannedJoin) {condition : Sql.Fragment}
    (h : condition.values = t.predicate.values) :
    (t.front planned ++ condition ++ t.back).values = t.configured ++ t.counts := by
  rw [Sql.Fragment.values_append, Sql.Fragment.values_append, h]
  cases t with
  | select s =>
    show s.predicate.values ++ s.paging.values = _
    rw [s.values_paging]
    rfl
  | insert s =>
    show s.written.values ++ [] ++ [] = s.fields.values ++ []
    rw [s.values_written, List.append_nil]
  | update s =>
    show s.assigned.values ++ s.predicate.values ++ [] = _
    rw [s.values_assigned]
    rfl
  | delete s => rfl

/-- Numbers of rows always have a database value. -/
theorem represented_counts (t : Statement) : ∀ v ∈ t.counts, ¬ v.Unrepresented := by
  intro v hv
  cases t with
  | select s =>
    obtain ⟨n, -, rfl⟩ := List.mem_map.1 hv
    exact id
  | insert s => cases hv
  | update s => cases hv
  | delete s => cases hv

/-! ### What is reported -/

/-- The statement behind a plan: its values are those that were configured and numbers of rows. -/
theorem exists_written (t : Statement) (h : t.predicate.Plain) {planned : List PlannedJoin}
    (hplan : t.planning = .ok planned) :
    ∃ written : Sql.Fragment, t.build = written.toQuery ∧
      written.values = t.configured ++ t.counts ∧ (t.Plain → written.Fits t.slots) := by
  obtain ⟨condition, hclause, hfits⟩ := Predicate.fits_clause h
  refine ⟨t.front planned ++ condition ++ t.back, ?_, ?_, fun hplain => ?_⟩
  · rw [build_eq, hplan, hclause]
    rfl
  · exact t.values_around planned (Predicate.values_clause h hclause)
  · exact fits_around hplain planned hfits

/-- **Which error is reported.** This is about statements whose conditions have no backslash in a
field name, and in an operator no mark and nothing that starts a quoted run. If the joins of a
selection cannot be planned, this is its error, whatever its values are. Otherwise the values are
those that were configured and numbers of rows, in the order of the placeholders; the statement is
refused exactly if some value that was configured is of a kind that no database has, and the first
of them is reported. If there is none, the statement is built and has them all. -/
theorem build_reports (t : Statement) (h : t.predicate.Plain) :
    (∀ cause, t.planning = .error cause → t.build = .error (.resolution cause)) ∧
      ∀ planned, t.planning = .ok planned →
        (∃ written : Sql.Fragment, t.build = written.toQuery ∧
          written.values = t.configured ++ t.counts ∧ (t.Plain → written.Fits t.slots)) ∧
        ((∃ e, t.build = .error e) ↔ ∃ v ∈ t.configured, v.Unrepresented) ∧
        (∀ before value after, t.configured = before ++ value :: after →
          (∀ v ∈ before, ¬ v.Unrepresented) → value.Unrepresented →
            t.build = .error (.configuration
              (.unsupportedValue (String.ofList value.description)))) ∧
        ((∀ v ∈ t.configured, ¬ v.Unrepresented) →
          ∃ q, t.build = .ok q ∧ q.Carries (t.configured ++ t.counts)) := by
  refine ⟨fun cause hplan => ?_, fun planned hplan => ?_⟩
  · rw [build_eq, hplan]
    rfl
  · obtain ⟨written, hbuild, hvalues, hfits⟩ := t.exists_written h hplan
    -- the other three parts follow from these two
    have hfirst : ∀ before value after, t.configured = before ++ value :: after →
        (∀ v ∈ before, ¬ v.Unrepresented) → value.Unrepresented →
          t.build = .error (.configuration
            (.unsupportedValue (String.ofList value.description))) := by
      intro before value after heq hbefore hvalue
      rw [heq, List.append_assoc, List.cons_append] at hvalues
      rw [hbuild]
      exact Sql.Fragment.toQuery_eq_error hvalues hbefore hvalue
    have hall : (∀ v ∈ t.configured, ¬ v.Unrepresented) →
        ∃ q, t.build = .ok q ∧ q.Carries (t.configured ++ t.counts) := by
      intro hconfigured
      have hbindable : ∀ v ∈ written.values, v.toScalar?.isSome := by
        intro v hv
        rw [hvalues] at hv
        refine BindValue.isSome_toScalar?_iff.2 ?_
        exact (List.mem_append.1 hv).elim (hconfigured v) (t.represented_counts v)
      obtain ⟨q, hq, -, hcarries⟩ := Sql.Fragment.toQuery_of_bindable hbindable
      exact ⟨q, hbuild.trans hq, hvalues ▸ hcarries⟩
    refine ⟨⟨written, hbuild, hvalues, hfits⟩, ⟨fun ⟨e, he⟩ => ?_, fun hsome => ?_⟩, hfirst, hall⟩
    · -- without such a value the statement would be built
      by_contra hnone
      obtain ⟨q, hq, -⟩ := hall fun v hv hunrepresented => hnone ⟨v, hv, hunrepresented⟩
      rw [hq] at he
      cases he
    · obtain ⟨before, value, after, heq, hbefore, hvalue⟩ := exists_first_unrepresented hsome
      exact ⟨_, hfirst before value after heq hbefore hvalue⟩

end Statement

namespace Survey

/-- Noon of a leap day in the zone of a machine two hours ahead of UTC. -/
def noon : ZonedDateTime :=
  ⟨⟨⟨2028, 2, 29, by decide, by decide⟩, ⟨12, 0, 0, 0, by decide⟩⟩, 7200⟩

/-- An update that sets a NULL with an offset, where another is NULL in the zone of the machine. -/
def postponing : Update where
  model := exercises
  fields := .ofList [("title", .string (some "T")), ("due", .zonedDateTime none)]
  predicate := Predicate.empty.push .and [.equal "due" (.localDateTime none)]

/-- A deletion by a key, by the noon and by a NULL with an offset. -/
def overdue : Delete :=
  (Delete.ofModel exercises).filterAll [.equal "id" (.bigInt (some 9)),
    .equal "due" (.localDateTime (some noon)), .equal "due" (.zonedDateTime none)]

/-- A selection by the noon, with a relation that is not known. -/
def stray : Select :=
  ((Select.ofModel exercises).filter (.equal "due" (.localDateTime (some noon)))).join
    ⟨ingredients, []⟩

end Survey

/-- The value that is set is reported in front of the one in the condition, the first of several in
the conditions as it is, an unknown relation in front of any value, and an insertion without such
values is built. -/
theorem Statement.build_reports_postponing :
    (update Survey.postponing).build =
        .error (.configuration (.unsupportedValue "ChronoDateTimeWithTimeZone(None)")) ∧
      (delete Survey.overdue).build = .error (.configuration
        (.unsupportedValue "ChronoDateTimeLocal(Some(2028-02-29T12:00:00+02:00))")) ∧
      (select Survey.stray).build = .error (.resolution (.unknownRelation "exercises" "kitchen")) ∧
      ∃ q, (insert Survey.addition).build = .ok q ∧ q.Carries [.string (some "T")] := by
  have hupdate : (update Survey.postponing).predicate.Plain := by decide
  have hdelete : (delete Survey.overdue).predicate.Plain := by decide
  have hselect : (select Survey.stray).predicate.Plain := by decide
  have hinsert : (insert Survey.addition).predicate.Plain := by decide
  have hset : (update Survey.postponing).configured =
      [.string (some "T")] ++ .zonedDateTime none :: [.localDateTime none] := rfl
  have hdue : (delete Survey.overdue).configured =
      [.bigInt (some 9)] ++ .localDateTime (some Survey.noon) :: [.zonedDateTime none] := rfl
  have hshown : String.ofList (BindValue.localDateTime (some Survey.noon)).description =
      "ChronoDateTimeLocal(Some(2028-02-29T12:00:00+02:00))" := by decide +kernel
  have hunplanned : (select Survey.stray).planning =
      .error (.unknownRelation "exercises" "kitchen") := rfl
  refine ⟨?_, ?_, (build_reports _ hselect).1 _ hunplanned, ?_⟩
  · exact ((build_reports _ hupdate).2 [] rfl).2.2.1 _ _ _ hset (by decide) trivial
  · rw [← hshown]
    exact ((build_reports _ hdelete).2 [] rfl).2.2.1 _ _ _ hdue (by decide) trivial
  · exact ((build_reports _ hinsert).2 [] rfl).2.2.2 (by decide)

end QueryForest
