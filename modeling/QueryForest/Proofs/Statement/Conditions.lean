import QueryForest.Proofs.Predicate.Operators
import QueryForest.Proofs.Predicate.Strays
import QueryForest.Proofs.Statement.Calls

namespace QueryForest

/-!
# Statements with conditions

Names and operators of conditions are free texts. What becomes of a statement depends on how the
marks of its predicate are read, and on nothing else of it.

* `Filtered` — a selection without joins, an update or a deletion; `Filtered.build_eq` puts it
  together around its `WHERE` clause;
* `Query.Carries` — the parameters of a query are certain values, in order;
* `Filtered.build_operators` — operators with question marks;
* `Delete.carriesAll_iff` — names of any characters.
-/

/-! ### Around a predicate -/

/-- A statement with a predicate; a selection is one without joins. -/
inductive Filtered
  | select (s : Select) (unjoined : s.joins = [])
  | update (s : Update)
  | delete (s : Delete)

namespace Filtered

/-- The same statement as one of all kinds. -/
def statement : Filtered → Statement
  | select s _ => .select s
  | update s => .update s
  | delete s => .delete s

/-- Writes the statement. -/
def build (t : Filtered) : Except Error Query := t.statement.build

/-- The condition on its rows. -/
def predicate (t : Filtered) : Predicate := t.statement.predicate

/-- The statement up to its `WHERE` clause. -/
def front (t : Filtered) : Sql.Fragment := t.statement.front []

/-- The statement behind its `WHERE` clause. -/
def back (t : Filtered) : Sql.Fragment := t.statement.back

/-- A statement with conditions is the text in front of them, its `WHERE` clause and the text
behind. -/
theorem build_eq (t : Filtered) : t.build =
    t.predicate.clause >>= fun condition => (t.front ++ condition ++ t.back).toQuery := by
  have hplan : t.statement.planning = .ok [] := by
    cases t with
    | select s unjoined =>
      show plan s.model s.joins = _
      rw [unjoined]
      rfl
    | update s => rfl
    | delete s => rfl
  have hbuild := t.statement.build_eq
  rw [hplan] at hbuild
  exact hbuild

/-- Numbers of rows are values that a database takes. -/
theorem bindable_back (t : Filtered) : ∀ v ∈ t.back.values, v.toScalar?.isSome := by
  intro v hv
  cases t with
  | select s unjoined =>
    have hpaging : v ∈ s.paging.values := hv
    rw [s.values_paging] at hpaging
    obtain ⟨n, -, rfl⟩ := List.mem_map.1 hpaging
    rfl
  | update s => cases hv
  | delete s => cases hv

end Filtered

/-! ### Sending what can be bound -/

/-- The parameters of a query are certain values, in their order. -/
def Query.Carries (q : Query) (values : List BindValue) : Prop :=
  List.Forall₂ (fun value param => value.toScalar? = some param) values q.params

/-- Sending a fragment never ends in a mark without a value. -/
theorem Sql.Fragment.toQuery_ne_unbound (a : Sql.Fragment) :
    a.toQuery ≠ .error .unboundPlaceholder := by
  unfold toQuery
  cases scalarsOf a.values with
  | error cause => simp
  | ok params => simp

/-- Values that all have a database value are sent as these. -/
theorem exists_forall₂_toScalar? {values : List BindValue} (h : ∀ v ∈ values, v.toScalar?.isSome) :
    ∃ params, List.Forall₂ (fun value param => value.toScalar? = some param) values params := by
  induction values with
  | nil => exact ⟨[], .nil⟩
  | cons value rest ih =>
    obtain ⟨params, hrest⟩ := ih fun v hv => h v (List.mem_cons_of_mem value hv)
    obtain ⟨param, hvalue⟩ := Option.isSome_iff_exists.1 (h value List.mem_cons_self)
    exact ⟨param :: params, .cons hvalue hrest⟩

/-- What can be bound is sent, with its values in order. -/
theorem Sql.Fragment.toQuery_of_bindable {a : Sql.Fragment}
    (h : ∀ v ∈ a.values, v.toScalar?.isSome) :
    ∃ q, a.toQuery = .ok q ∧ q.sql = String.ofList a.text ∧ q.Carries a.values := by
  obtain ⟨params, hparams⟩ := exists_forall₂_toScalar? h
  have hscalars : scalarsOf a.values = .ok params :=
    scalarsOf_eq_ok_iff.2 (hparams.imp fun _ _ => BindValue.toScalar_eq_ok.2)
  exact ⟨⟨String.ofList a.text, params⟩, toQuery_eq_ok.2 ⟨rfl, hscalars⟩, rfl, hparams⟩

/-! ### Operators with question marks -/

namespace Filtered

/-- **Operators with question marks.** A statement with conditions whose names have no backslash and
whose operators have no quotes cannot be built for want of a value exactly if an operator has a run
of question marks of odd length that cannot be made longer. Otherwise its `WHERE` clause is that of
the conditions with one question mark for every two in a row, and it has all values in order. -/
theorem build_operators (t : Filtered) (hempty : t.predicate.isEmpty = false)
    (hquoteless : ∀ c ∈ t.predicate.conditions, c.Quoteless) :
    (t.build = .error .unboundPlaceholder ↔
      ∃ c ∈ t.predicate.conditions, ∃ after, OddRun '?' c.operator.toList after) ∧
    ((¬ ∃ c ∈ t.predicate.conditions, ∃ after, OddRun '?' c.operator.toList after) →
      ∃ compiled, (t.predicate.map Condition.halved).compile? = some compiled ∧
        t.build = (t.front ++ ⟨" WHERE ".toList ++ compiled.text, t.predicate.values⟩ ++
          t.back).toQuery ∧
        ((∀ v ∈ t.front.values ++ t.predicate.values, v.toScalar?.isSome) →
          ∃ q, t.build = .ok q ∧
            q.sql = String.ofList (t.front.text ++ " WHERE ".toList ++ compiled.text ++
              t.back.text) ∧
            q.Carries (t.front.values ++ t.predicate.values ++ t.back.values))) := by
  have herror := Predicate.clause_eq_error_iff hempty hquoteless
  rw [build_eq]
  by_cases hodd : ∃ c ∈ t.predicate.conditions, ∃ after, OddRun '?' c.operator.toList after
  · rw [herror.2 hodd]
    exact ⟨⟨fun _ => hodd, fun _ => rfl⟩, fun hno => absurd hodd hno⟩
  · -- the clause takes the values of the predicate, between those in front of it and behind it
    obtain ⟨compiled, hcompiled, hclause⟩ := Predicate.clause_eq_ok hempty hquoteless hodd
    have hbuild : (t.predicate.clause >>= fun condition =>
        (t.front ++ condition ++ t.back).toQuery) =
        (t.front ++ ⟨" WHERE ".toList ++ compiled.text, t.predicate.values⟩ ++ t.back).toQuery := by
      rw [hclause]
      rfl
    rw [hbuild]
    refine ⟨⟨fun h => absurd h (Sql.Fragment.toQuery_ne_unbound _), fun h => absurd h hodd⟩,
      fun _ => ⟨compiled, hcompiled, rfl, fun hbindable => ?_⟩⟩
    -- the values behind the clause are numbers of rows, which need no hypothesis
    have hall : ∀ v ∈ (t.front ++ ⟨" WHERE ".toList ++ compiled.text, t.predicate.values⟩ ++
        t.back).values, v.toScalar?.isSome := by
      intro v hv
      rcases List.mem_append.1 hv with hv | hv
      · exact hbindable v hv
      · exact t.bindable_back v hv
    obtain ⟨q, hq, hsql, hcarries⟩ := Sql.Fragment.toQuery_of_bindable hall
    refine ⟨q, hq, ?_, hcarries⟩
    rw [hsql]
    simp only [Sql.Fragment.text_append, List.append_assoc]

end Filtered

namespace Survey

/-- A selection of two open exercises by some operator. -/
def matching (operator : String) : Filtered :=
  .select (((Select.ofModel exercises).filter ⟨"state?", operator, .string (some "open")⟩).limit 2)
    rfl

end Survey

/-- A lone question mark takes the value of the condition, and leaves none for the condition. -/
theorem Filtered.build_operators_matching :
    (Survey.matching "@?").build = .error .unboundPlaceholder ∧
      ∃ q, (Survey.matching "@??").build = .ok q ∧
        q.sql = "SELECT * FROM \"exercises\" WHERE \"state?\" @? ? LIMIT ?" ∧
        q.Carries [.string (some "open"), .bigUnsigned (some 2)] := by
  constructor
  · have hodd : ∃ c ∈ (Survey.matching "@?").predicate.conditions,
        ∃ after, OddRun '?' c.operator.toList after :=
      (Predicate.surplus_ne_zero_iff _).1 (by decide)
    exact (build_operators (Survey.matching "@?") rfl (by decide)).1.2 hodd
  · have heven : ¬ ∃ c ∈ (Survey.matching "@??").predicate.conditions,
        ∃ after, OddRun '?' c.operator.toList after :=
      mt (Predicate.surplus_ne_zero_iff _).2 (by decide)
    obtain ⟨compiled, hcompiled, -, hsent⟩ :=
      (build_operators (Survey.matching "@??") rfl (by decide)).2 heven
    obtain ⟨q, hq, hsql, hcarries⟩ := hsent (by decide)
    have hcompiled' : some compiled = some ⟨"\"state?\" @? ?".toList, [.string (some "open")]⟩ :=
      hcompiled.symm.trans rfl
    cases hcompiled'
    exact ⟨q, hq, hsql.trans (by decide +kernel), hcarries⟩

/-! ### Names of any characters -/

namespace Delete

/-- The deletion is sent with the values of all its conditions. -/
def CarriesAll (s : Delete) : Prop := ∃ q, s.build = .ok q ∧ q.Carries s.predicate.values

section Strays

variable {s : Delete} (hoperator : ∀ c ∈ s.predicate.conditions, Sql.Neutral c.operator.toList)
  (hbindable : ∀ v ∈ s.predicate.values, v.toScalar?.isSome)

include hoperator hbindable

/-- A deletion with no more strays than hidden conditions is sent with its first values. -/
theorem build_of_strays_le (hle : s.predicate.strays ≤ s.predicate.hidden.length) :
    ∃ q, s.build = .ok q ∧
      q.Carries (s.predicate.values.take (s.predicate.seen.length + s.predicate.strays)) := by
  obtain ⟨text, hclause⟩ := Predicate.clause_eq hoperator
  rw [if_pos hle, List.map_take, ← Predicate.values_eq] at hclause
  have hfirst : ∀ v ∈ s.predicate.values.take (s.predicate.seen.length + s.predicate.strays),
      v.toScalar?.isSome := fun v hv => hbindable v (List.mem_of_mem_take hv)
  unfold build
  rw [hclause]
  obtain ⟨q, hq, -, hcarries⟩ := Sql.Fragment.toQuery_of_bindable
    (a := Sql.Fragment.ofText ("DELETE FROM ".toList ++ Sql.quoteName s.model.table.toList) ++
      Sql.Fragment.mk text _) hfirst
  exact ⟨q, hq, hcarries⟩

/-- With more strays than that it cannot be built. -/
theorem build_eq_error_iff_strays : s.build = .error .unboundPlaceholder ↔
    s.predicate.hidden.length < s.predicate.strays := by
  constructor
  · intro hbuild
    by_contra hle
    obtain ⟨q, hq, -⟩ := build_of_strays_le hoperator hbindable (by omega)
    rw [hbuild] at hq
    cases hq
  · intro hlt
    obtain ⟨text, hclause⟩ := Predicate.clause_eq hoperator
    rw [if_neg (by omega)] at hclause
    unfold build
    rw [hclause]
    rfl

/-- A deletion carries all values exactly if as many marks in hidden names take one as there are
hidden conditions. -/
theorem carriesAll_iff_strays : s.CarriesAll ↔
    s.predicate.strays = s.predicate.hidden.length := by
  have hlength : s.predicate.seen.length + s.predicate.hidden.length =
      s.predicate.values.length := by
    rw [← List.length_append, s.predicate.seen_append_hidden, Predicate.values_eq, List.length_map]
  constructor
  · rintro ⟨q, hq, hcarries⟩
    have hle : s.predicate.strays ≤ s.predicate.hidden.length := by
      by_contra hlt
      rw [(build_eq_error_iff_strays hoperator hbindable).2 (by omega)] at hq
      cases hq
    obtain ⟨sent, hbuild, htake⟩ := build_of_strays_le hoperator hbindable hle
    rw [hq] at hbuild
    cases hbuild
    -- the same parameters are those of all values and of the first ones
    have hmany := hcarries.length_eq
    have hfew := htake.length_eq
    rw [List.length_take] at hfew
    omega
  · intro heq
    obtain ⟨q, hq, hcarries⟩ := build_of_strays_le hoperator hbindable heq.le
    rw [List.take_of_length_le (by omega)] at hcarries
    exact ⟨q, hq, hcarries⟩

end Strays

/-- **Names of any characters.** A deletion by equalities is sent with all its values exactly if the
names of the conditions whose marks are hidden take as many values as there are such conditions.
If they take more it cannot be built; if they take fewer, the last values are lost. No mark is
hidden as long as no name has a double quote or an end behind an odd run of backslashes. -/
theorem carriesAll_iff (s : Delete) (hequal : ∀ c ∈ s.predicate.conditions, c.operator = "=")
    (hbindable : ∀ v ∈ s.predicate.values, v.toScalar?.isSome) :
    (s.CarriesAll ↔ s.predicate.strays = s.predicate.hidden.length) ∧
    (s.build = .error .unboundPlaceholder ↔ s.predicate.hidden.length < s.predicate.strays) ∧
    (s.predicate.strays ≤ s.predicate.hidden.length → ∃ q, s.build = .ok q ∧
      q.Carries (s.predicate.values.take (s.predicate.seen.length + s.predicate.strays))) ∧
    ((∀ c ∈ s.predicate.conditions, Sql.SettledPath c.field.toList) → s.CarriesAll) ∧
    ((∀ c ∈ s.predicate.conditions, '?' ∉ c.field.toList) →
      (s.CarriesAll ↔ ∀ c ∈ s.predicate.conditions, Sql.SettledPath c.field.toList)) := by
  have hoperator : ∀ c ∈ s.predicate.conditions, Sql.Neutral c.operator.toList := by
    intro c hc
    rw [hequal c hc]
    decide
  have hall := carriesAll_iff_strays hoperator hbindable
  refine ⟨hall, build_eq_error_iff_strays hoperator hbindable,
    build_of_strays_le hoperator hbindable, fun hsettled => ?_, fun hmarks => ?_⟩
  · -- no hidden conditions, and none of their names
    have hhidden := Predicate.hidden_eq_nil_iff.2 hsettled
    rw [hall, Predicate.strays_eq_zero_of_hidden hhidden, hhidden]
    rfl
  · rw [hall, Predicate.strays_eq_zero_of_not_mem hmarks, ← Predicate.hidden_eq_nil_iff,
      ← List.length_eq_zero_iff]
    exact eq_comm

end Delete

namespace Survey

/-- A deletion of the exercises with a one in all of some columns. -/
def discarding (fields : List String) : Delete :=
  (Delete.ofModel exercises).filterAll (fields.map fun field => .equal field (.int (some 1)))

end Survey

/-- Quotes, question marks and backslashes do no harm as long as no backslash meets a quote. -/
theorem Delete.carriesAll_iff_discarding :
    (Survey.discarding ["say \"what?\"", "C:\\temp"]).CarriesAll := by
  have hequal : ∀ c ∈ (Survey.discarding ["say \"what?\"", "C:\\temp"]).predicate.conditions,
      c.operator = "=" := by decide
  have hsettled : ∀ c ∈ (Survey.discarding ["say \"what?\"", "C:\\temp"]).predicate.conditions,
      Sql.SettledPath c.field.toList := by decide +kernel
  exact (carriesAll_iff _ hequal (by decide)).2.2.2.1 hsettled

/-- A backslash at the end of a name hides the mark of the condition, and its value is lost; question
marks of another name then take values that are not there. -/
theorem Delete.not_carriesAll_discarding :
    (∀ c ∈ (Survey.discarding ["a\\"]).predicate.conditions,
        c.operator = "=" ∧ c.value.toScalar?.isSome) ∧
      (Survey.discarding ["a\\"]).build = .ok ⟨"DELETE FROM \"exercises\" WHERE \"a\\\" = ?", []⟩ ∧
      ¬ (Survey.discarding ["a\\"]).CarriesAll ∧
      (Survey.discarding ["a\\", "? ? ?"]).build = .error .unboundPlaceholder := by
  have hbuild : (Survey.discarding ["a\\"]).build =
      .ok ⟨"DELETE FROM \"exercises\" WHERE \"a\\\" = ?", []⟩ := by decide +kernel
  refine ⟨by decide, hbuild, ?_, by decide +kernel⟩
  rintro ⟨q, hq, hcarries⟩
  rw [hbuild] at hq
  cases hq
  cases hcarries

end QueryForest
