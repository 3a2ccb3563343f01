import QueryForest.Connection.Script
import QueryForest.Proofs.Forest.Unjoined
import QueryForest.Proofs.Statement.Placeholders
import QueryForest.Statement.Execute

namespace QueryForest

/-!
# The calls of a run

A statement that cannot be built is not sent, and nothing is sent after a failure. What is sent
after a success can be built whatever was reported, so that a change of the database is never
followed by an error of this side.

* `Connection.logged` — a connection that writes down its calls;
* `Trace` — the result of a run, the state it leaves and its calls, put together by `Trace.ofBuild`,
  `Trace.ofQuery` and `Trace.ofExec`;
* `Run.ComesTo` — a run has a trace;
* `Insert.reread` and `Update.reread` — the queries that read the rows of a change again;
* `comesTo_execute` — the traces of all statements.
-/

variable {σ α β : Type}

/-- The same connection, which also writes down the calls that it gets. -/
def Connection.logged (c : Connection σ) : Connection (σ × List Call) where
  query q s := ((c.query q s.1).1, (c.query q s.1).2, s.2 ++ [.query q])
  exec q s := ((c.exec q s.1).1, (c.exec q s.1).2, s.2 ++ [.exec q])

/-! ### Traces -/

/-- The result of a run, the state that it leaves and the calls that it makes, in order. -/
structure Trace (σ α : Type) where
  result : Except Error α
  state : σ
  calls : List Call

namespace Trace

/-- Without a call. -/
def still (result : Except Error α) (state : σ) : Trace σ α := ⟨result, state, []⟩

/-- A statement is sent if it was built; otherwise there is its error and no call. -/
def ofBuild (built : Except Error Query) (before : σ) (send : Query → Trace σ α) : Trace σ α :=
  match built with
  | .error e => still (.error e) before
  | .ok q => send q

/-- One query, and the result that its rows are read as, or the report of its failure. -/
def ofQuery (c : Connection σ) (q : Query) (before : σ) (read : List Row → Except Error α) :
    Trace σ α :=
  match c.query q before with
  | (.error report, after) => ⟨.error (.execution report), after, [.query q]⟩
  | (.ok rows, after) => ⟨read rows, after, [.query q]⟩

/-- One change of the database, and what follows it, or the report of its failure. -/
def ofExec (c : Connection σ) (q : Query) (before : σ) (next : Outcome → σ → Trace σ α) :
    Trace σ α :=
  match c.exec q before with
  | (.error report, after) => ⟨.error (.execution report), after, [.exec q]⟩
  | (.ok outcome, after) =>
    ⟨(next outcome after).result, (next outcome after).state,
      .exec q :: (next outcome after).calls⟩

end Trace

/-- A run comes to a trace, from whatever calls were made before it. -/
def Run.ComesTo (run : Run (σ × List Call) α) (before : σ) (t : Trace σ α) : Prop :=
  ∀ log, run.run.run (before, log) = (t.result, t.state, log ++ t.calls)

namespace Run

variable {c : Connection σ} {before after : σ} {calls : List Call}

/-- What does not need the database makes no call. -/
theorem comesTo_still (result : Except Error α) (before : σ) :
    ComesTo (ofExcept result) before (.still result before) := by
  intro log
  rw [Trace.still, List.append_nil]
  rfl

/-- One query is one call, and its failure is reported. -/
theorem comesTo_query {q : Query} {answer : Except String (List Row)}
    (h : c.query q before = (answer, after)) :
    ComesTo (call (c.logged.query q)) before ⟨answer.mapError .execution, after, [.query q]⟩ := by
  intro log
  show ((c.query q before).1.mapError Error.execution, (c.query q before).2, log ++ [.query q]) = _
  rw [h]

/-- One change is one call, and its failure is reported. -/
theorem comesTo_exec {q : Query} {answer : Except String Outcome}
    (h : c.exec q before = (answer, after)) :
    ComesTo (call (c.logged.exec q)) before ⟨answer.mapError .execution, after, [.exec q]⟩ := by
  intro log
  show ((c.exec q before).1.mapError Error.execution, (c.exec q before).2, log ++ [.exec q]) = _
  rw [h]

/-- Nothing follows a failure. -/
theorem ComesTo.bind_error {x : Run (σ × List Call) α} {e : Error}
    (h : x.ComesTo before ⟨.error e, after, calls⟩) (f : α → Run (σ × List Call) β) :
    (x >>= f).ComesTo before ⟨.error e, after, calls⟩ := by
  intro log
  rw [ExceptT.run_bind, StateT.run_bind, h log]
  rfl

/-- The calls of what follows a success stand behind its calls. -/
theorem ComesTo.bind_ok {x : Run (σ × List Call) α} {a : α}
    (h : x.ComesTo before ⟨.ok a, after, calls⟩) {f : α → Run (σ × List Call) β} {t : Trace σ β}
    (hf : (f a).ComesTo after t) :
    (x >>= f).ComesTo before ⟨t.result, t.state, calls ++ t.calls⟩ := by
  intro log
  rw [ExceptT.run_bind, StateT.run_bind, h log, ← List.append_assoc]
  exact hf (log ++ calls)

/-- A statement that cannot be built makes no call. -/
theorem comesTo_ofBuild {built : Except Error Query} {f : Query → Run (σ × List Call) α}
    {send : Query → Trace σ α} (h : ∀ q, built = .ok q → (f q).ComesTo before (send q)) :
    (ofExcept built >>= f).ComesTo before (.ofBuild built before send) := by
  have hbuilt := comesTo_still built before
  cases built with
  | error e => exact hbuilt.bind_error f
  | ok q => exact hbuilt.bind_ok (h q rfl)

/-- What is made of the rows of a query makes no further call. -/
theorem comesTo_ofQuery {q : Query} {f : List Row → Run (σ × List Call) α}
    {read : List Row → Except Error α}
    (h : ∀ rows after, (f rows).ComesTo after (.still (read rows) after)) :
    (call (c.logged.query q) >>= f).ComesTo before (.ofQuery c q before read) := by
  unfold Trace.ofQuery
  rcases hcall : c.query q before with ⟨answer, after⟩
  cases answer with
  | error report => exact (comesTo_query hcall).bind_error f
  | ok rows => exact (comesTo_query hcall).bind_ok (h rows after)

/-- A change is followed by the calls of what comes behind it. -/
theorem comesTo_ofExec {q : Query} {f : Outcome → Run (σ × List Call) α}
    {next : Outcome → σ → Trace σ α}
    (h : ∀ outcome after, (f outcome).ComesTo after (next outcome after)) :
    (call (c.logged.exec q) >>= f).ComesTo before (.ofExec c q before next) := by
  unfold Trace.ofExec
  rcases hcall : c.exec q before with ⟨answer, after⟩
  cases answer with
  | error report => exact (comesTo_exec hcall).bind_error f
  | ok outcome => exact (comesTo_exec hcall).bind_ok (h outcome after)

end Run

/-! ### Sending values -/

/-- The database value that is sent for a value that was read: dates and times are sent as text. -/
def Scalar.rebound : Scalar → Scalar
  | date v | time v | timestamp v => text v
  | v => v

/-- A value that was read can always be sent. -/
theorem Scalar.toScalar_toBind (value : Scalar) : value.toBind.toScalar = .ok value.rebound := by
  cases value <;> rfl

/-- The parameters for values and more values are those for the former and those for the latter. -/
theorem scalarsOf_append_eq_ok {values more : List BindValue} {params : List Scalar} :
    scalarsOf (values ++ more) = .ok params ↔
      ∃ first rest, scalarsOf values = .ok first ∧ scalarsOf more = .ok rest ∧
        params = first ++ rest := by
  unfold scalarsOf
  rw [List.mapM_append]
  constructor
  · intro h
    obtain ⟨first, hfirst, h⟩ := bind_eq_ok.1 h
    obtain ⟨rest, hrest, h⟩ := bind_eq_ok.1 h
    cases h
    exact ⟨first, rest, hfirst, hrest, rfl⟩
  · rintro ⟨first, rest, hfirst, hrest, rfl⟩
    exact bind_eq_ok.2 ⟨first, hfirst, bind_eq_ok.2 ⟨rest, hrest, rfl⟩⟩

/-- The parameters of further values stand behind those of the values in front of them. -/
theorem scalarsOf_append {values more : List BindValue} {params : List Scalar}
    (h : scalarsOf (values ++ more) = .ok params) :
    scalarsOf more = .ok (params.drop values.length) := by
  obtain ⟨first, rest, hfirst, hrest, rfl⟩ := scalarsOf_append_eq_ok.1 h
  rw [(scalarsOf_eq_ok_iff.1 hfirst).length_eq, List.drop_left]
  exact hrest

/-- A fragment is sent exactly if all of its values are, and then with its text as it is. -/
theorem Sql.Fragment.toQuery_eq_ok {a : Sql.Fragment} {q : Query} :
    a.toQuery = .ok q ↔ q.sql = String.ofList a.text ∧ scalarsOf a.values = .ok q.params := by
  obtain ⟨sql, params⟩ := q
  unfold toQuery
  cases scalarsOf a.values with
  | error cause => simp
  | ok values => simp [eq_comm]

/-- Joined fragments have their values in order. -/
theorem Sql.Fragment.values_joinWith (separator : String) (items : List Sql.Fragment) :
    (joinWith separator items).values = items.flatMap Sql.Fragment.values := by
  induction items with
  | nil => rfl
  | cons a rest ih =>
    cases rest with
    | nil =>
      rw [List.flatMap_cons, List.flatMap_nil, List.append_nil]
      rfl
    | cons next rest =>
      show (a ++ ofString separator ++ joinWith separator (next :: rest)).values =
        a.values ++ (next :: rest).flatMap values
      rw [values_append, values_append, ih]
      show a.values ++ [] ++ _ = _
      rw [List.append_nil]

/-! ### Selections of a predicate -/

namespace Select

/-- The text of a selection of all columns of a table, up to its `WHERE` clause. -/
def everyColumn (model : Model) : List Char :=
  "SELECT * FROM ".toList ++ Sql.quoteName model.table.toList

/-- A selection of a predicate selects all columns of its table. -/
theorem head_ofPredicate (model : Model) (p : Predicate) :
    (ofPredicate model p).head [] = everyColumn model := by
  have hword : "SELECT ".toList ++ List.intercalate [',', ' '] [['*']] ++ " FROM ".toList =
      "SELECT * FROM ".toList := by decide
  show "SELECT ".toList ++ List.intercalate [',', ' '] [['*']] ++ " FROM ".toList ++
    Sql.quoteName model.table.toList ++ [] = everyColumn model
  rw [hword, List.append_nil]
  rfl

/-- A selection by a predicate alone is that text and the `WHERE` clause. -/
theorem build_ofPredicate (model : Model) {p : Predicate} {condition : Sql.Fragment}
    (h : p.clause = .ok condition) :
    (ofPredicate model p).build =
      (Sql.Fragment.ofText (everyColumn model) ++ condition).toQuery := by
  show (p.clause >>= fun condition => (Sql.Fragment.ofText ((ofPredicate model p).head []) ++
    condition ++ .ofText [] ++ (.ofText [] ++ .ofText [])).toQuery) = _
  rw [h, head_ofPredicate]
  show (Sql.Fragment.ofText (everyColumn model) ++ condition ++ .ofText [] ++
    (.ofText [] ++ .ofText [])).toQuery = _
  simp only [Sql.Fragment.append_ofText_nil]

end Select

/-! ### Reading rows again -/

/-- The selection of the row with a reported key. -/
def Insert.inserted (s : Insert) (key : Scalar) : Select :=
  (Select.ofModel s.model).filter (.equal s.model.primaryKey key.toBind)

/-- The query that reads the row with a reported key again. -/
def Insert.reread (s : Insert) (key : Scalar) : Query where
  sql := String.ofList (Select.everyColumn s.model ++ " WHERE ".toList ++
    Sql.quotePath s.model.primaryKey.toList ++ " = ?".toList)
  params := [key.rebound]

/-- The row can be read again whatever key was reported. -/
theorem Insert.build_inserted_of_settled {s : Insert}
    (h : Sql.SettledPath s.model.primaryKey.toList) (key : Scalar) :
    (s.inserted key).build = .ok (s.reread key) := by
  let p : Predicate := ⟨[⟨.and, [.equal s.model.primaryKey key.toBind]⟩]⟩
  -- the only mark of the text takes the key
  have htakes : Sql.Takes .plain (Predicate.segmentsText false p.segments) p.values .plain := by
    have hequal : Sql.Bare (Condition.equal s.model.primaryKey key.toBind).operator.toList := by
      show Sql.Bare "=".toList
      decide
    show Sql.Takes .plain (List.intercalate " AND ".toList
      [(Condition.equal s.model.primaryKey key.toBind).text]) [key.toBind] .plain
    rw [List.intercalate_singleton]
    exact Condition.takes_text h hequal
  have hclause : p.clause = .ok (.ofString " WHERE " ++ ⟨Predicate.segmentsText false p.segments,
      p.values⟩) := by
    show (Sql.Fragment.bound ⟨Predicate.segmentsText false p.segments, p.values⟩).map _ = _
    rw [Sql.bound_of_takes htakes]
    rfl
  have hbuild := Select.build_ofPredicate s.model hclause
  refine hbuild.trans (Sql.Fragment.toQuery_eq_ok.2 ⟨?_, ?_⟩)
  · -- the text of one condition has no brackets and no connective
    have hcondition : Predicate.segmentsText false p.segments =
        Sql.quotePath s.model.primaryKey.toList ++ " = ?".toList := by
      show List.intercalate " AND ".toList [Sql.quotePath s.model.primaryKey.toList ++
        ' ' :: "=".toList ++ [' ', '?']] = _
      rw [List.intercalate_singleton, List.append_assoc]
      rfl
    show _ = String.ofList (Select.everyColumn s.model ++
      (" WHERE ".toList ++ Predicate.segmentsText false p.segments))
    rw [hcondition, reread, List.append_assoc, List.append_assoc]
  · show scalarsOf [key.toBind] = .ok [key.rebound]
    unfold scalarsOf
    rw [List.mapM_cons, Scalar.toScalar_toBind]
    rfl

/-- The follow-up of an insertion can be built, and it asks for the row with the reported key. -/
theorem Insert.build_inserted {s : Insert} (h : '\\' ∉ s.model.primaryKey.toList) (key : Scalar) :
    (s.inserted key).build = .ok (s.reread key) :=
  build_inserted_of_settled (Sql.settledPath_of_not_mem h) key

namespace Update

/-- The query that reads the rows of an update that was sent again: its `WHERE` clause with the
parameters behind those of its assignments. -/
def reread (s : Update) (sent : Query) : Query where
  sql := String.ofList (Select.everyColumn s.model ++ sent.sql.toList.drop s.assigned.text.length)
  params := sent.params.drop s.fields.size

/-- The values of the assignments are those of the fields. -/
theorem values_assigned (s : Update) : s.assigned.values = s.fields.values := by
  unfold assigned Fields.values
  rw [Sql.Fragment.values_append, Sql.Fragment.values_joinWith, List.flatMap_map]
  exact List.flatMap_pure_eq_map _ _

/-- The follow-up of an update is a selection of all columns with the conditions of the update. -/
theorem sql_reread {s : Update} {sent : Query} {condition : List Char}
    (h : sent.sql = String.ofList (s.assigned.text ++ condition)) :
    (s.reread sent).sql = String.ofList (Select.everyColumn s.model ++ condition) := by
  unfold reread
  rw [h, String.toList_ofList, List.drop_left]

/-- The rows can be read again if the update could be sent: by the same clause. -/
theorem build_ofPredicate {s : Update} {sent : Query} (h : s.build = .ok sent) :
    (∃ condition, sent.sql = String.ofList (s.assigned.text ++ condition) ∧
      (s.reread sent).sql = String.ofList (Select.everyColumn s.model ++ condition)) ∧
      (Select.ofPredicate s.model s.predicate).build = .ok (s.reread sent) := by
  rw [build_eq] at h
  obtain ⟨condition, hcondition, h⟩ := bind_eq_ok.1 h
  obtain ⟨hsql, hparams⟩ := Sql.Fragment.toQuery_eq_ok.1 h
  rw [Sql.Fragment.text_append] at hsql
  rw [Sql.Fragment.values_append] at hparams
  refine ⟨⟨condition.text, hsql, sql_reread hsql⟩, ?_⟩
  rw [Select.build_ofPredicate s.model hcondition]
  refine Sql.Fragment.toQuery_eq_ok.2 ⟨sql_reread hsql, ?_⟩
  -- the parameters of the clause stand behind those of the assignments
  have hrest := scalarsOf_append hparams
  rw [values_assigned, Fields.values, List.length_map] at hrest
  exact hrest

end Update

/-! ### The traces of the statements -/

section Traces

variable (c : Connection σ) (before : σ)

namespace Select

/-- What the rows of a selection are read as. -/
def read (s : Select) (mode : FetchMode) (rows : List Row) : Except Error (List Record) :=
  (assemble s.model s.joins (rows.map (Row.fetch mode))).mapError .resolution

/-- Without relations, rows are read as records of the model. -/
theorem read_ofPredicate (model : Model) (p : Predicate) (rows : List Row) :
    (ofPredicate model p).read .assoc rows = .ok (recordsOf model rows) := by
  show (assemble model [] (rows.map (Row.fetch .assoc))).mapError Error.resolution = _
  rw [assemble_unjoined]
  rfl

/-- Rows are fetched with one query, if it can be built. -/
theorem comesTo_fetch (s : Select) (mode : FetchMode) {f : List RawRow → Run (σ × List Call) α}
    {read : List Row → Except Error α}
    (h : ∀ rows after, (f (rows.map (Row.fetch mode))).ComesTo after (.still (read rows) after)) :
    (s.fetch c.logged mode >>= f).ComesTo before
      (.ofBuild s.build before fun q => .ofQuery c q before read) := by
  unfold fetch
  simp only [bind_assoc, pure_bind]
  exact Run.comesTo_ofBuild fun q _ => Run.comesTo_ofQuery h

/-- A selection in one of the modes is one query, whose rows are read in this mode. -/
theorem comesTo_executeIn (s : Select) (mode : FetchMode) (finish : List Record → α) :
    (s.executeIn c.logged mode >>= fun records => pure (finish records)).ComesTo before
      (.ofBuild s.build before fun q => .ofQuery c q before fun rows =>
        (s.read mode rows).map finish) := by
  unfold executeIn
  rw [bind_assoc]
  refine s.comesTo_fetch c before mode fun rows after => ?_
  show (Run.ofExcept (s.read mode rows) >>= fun records => pure (finish records)).ComesTo after _
  cases s.read mode rows with
  | error e => exact Run.comesTo_still (.error e) after
  | ok records => exact Run.comesTo_still (.ok (finish records)) after

/-- Executing a selection is one query. -/
theorem comesTo_execute (s : Select) : (s.execute c.logged).ComesTo before
    (.ofBuild s.build before fun q => .ofQuery c q before (s.read .named)) :=
  s.comesTo_fetch c before .named fun rows after => Run.comesTo_still (s.read .named rows) after

/-- The first record of a selection takes one query as well. -/
theorem comesTo_first (s : Select) : (s.first c.logged).ComesTo before
    (.ofBuild s.build before fun q => .ofQuery c q before fun rows =>
      (s.read .named rows).map List.head?) :=
  s.comesTo_executeIn c before .named List.head?

/-- The rows of a selection take one query, and nothing is assembled. -/
theorem comesTo_rows (s : Select) : (s.rows c.logged).ComesTo before
    (.ofBuild s.build before fun q => .ofQuery c q before fun rows =>
      .ok (rows.map (Row.fetch .assoc))) := by
  unfold rows
  rw [← bind_pure (s.fetch c.logged .assoc)]
  exact s.comesTo_fetch c before .assoc fun rows after => Run.comesTo_still (.ok _) after

/-- The rows of a selection by a predicate can be read whatever they are. -/
theorem comesTo_ofPredicate (model : Model) (p : Predicate) (finish : List Record → α) :
    ((ofPredicate model p).executeIn c.logged .assoc >>=
        fun records => pure (finish records)).ComesTo before
      (.ofBuild (ofPredicate model p).build before fun q => .ofQuery c q before fun rows =>
        .ok (finish (recordsOf model rows))) := by
  have htrace := (ofPredicate model p).comesTo_executeIn c before .assoc finish
  simp only [read_ofPredicate] at htrace
  exact htrace

end Select

/-- A deletion is one change, and nothing is read behind it. -/
theorem Delete.comesTo_execute (s : Delete) : (s.execute c.logged).ComesTo before
    (.ofBuild s.build before fun q => .ofExec c q before fun outcome after =>
      .still (.ok outcome.rowsAffected) after) :=
  Run.comesTo_ofBuild fun _ _ => Run.comesTo_ofExec fun _ after => Run.comesTo_still (.ok _) after

/-- An insertion is one change and one query for the reported key. -/
theorem Insert.comesTo_execute (s : Insert) : (s.execute c.logged).ComesTo before
    (.ofBuild s.build before fun q => .ofExec c q before fun outcome after =>
      .ofBuild (s.inserted outcome.lastInsertId).build after fun again =>
        .ofQuery c again after fun rows => .ok ⟨outcome.rowsAffected, recordsOf s.model rows⟩) :=
  Run.comesTo_ofBuild fun _ _ => Run.comesTo_ofExec fun _ _ =>
    Select.comesTo_ofPredicate c _ s.model _ _

/-- An update is one change and one query with its own conditions. -/
theorem Update.comesTo_execute (s : Update) : (s.execute c.logged).ComesTo before
    (.ofBuild s.build before fun q => .ofExec c q before fun outcome after =>
      .ofQuery c (s.reread q) after fun rows =>
        .ok ⟨outcome.rowsAffected, recordsOf s.model rows⟩) := by
  refine Run.comesTo_ofBuild fun q hbuild => Run.comesTo_ofExec fun outcome after => ?_
  have hagain := Select.comesTo_ofPredicate c after s.model s.predicate
    (Mutation.mk outcome.rowsAffected)
  rw [(build_ofPredicate hbuild).2] at hagain
  exact hagain

end Traces

/-- **The calls of a run, in their order.** A statement that cannot be built comes to its error
without a call. A selection is one query; a deletion is one change; an insertion and an update are
one change and, if it succeeds, one query for the rows of that change. A failure of the database is
the error of the run and ends it. The query that follows a change can be built whatever key was
reported, if the name of the primary key has no backslash, and whatever rows it gives can be read:
all that can go wrong behind a change is a failure of that query in the database. -/
theorem calls_in_order (c : Connection σ) (before : σ) :
    (∀ s : Select,
      (s.execute c.logged).ComesTo before (.ofBuild s.build before fun q =>
        .ofQuery c q before (s.read .named)) ∧
      (s.first c.logged).ComesTo before (.ofBuild s.build before fun q =>
        .ofQuery c q before fun rows => (s.read .named rows).map List.head?) ∧
      (s.rows c.logged).ComesTo before (.ofBuild s.build before fun q =>
        .ofQuery c q before fun rows => .ok (rows.map (Row.fetch .assoc)))) ∧
    (∀ s : Delete, (s.execute c.logged).ComesTo before (.ofBuild s.build before fun q =>
      .ofExec c q before fun outcome after => .still (.ok outcome.rowsAffected) after)) ∧
    (∀ s : Insert,
      (s.execute c.logged).ComesTo before (.ofBuild s.build before fun q =>
        .ofExec c q before fun outcome after =>
          .ofBuild (s.inserted outcome.lastInsertId).build after fun again =>
            .ofQuery c again after fun rows =>
              .ok ⟨outcome.rowsAffected, recordsOf s.model rows⟩) ∧
      ('\\' ∉ s.model.primaryKey.toList →
        (s.execute c.logged).ComesTo before (.ofBuild s.build before fun q =>
          .ofExec c q before fun outcome after =>
            .ofQuery c (s.reread outcome.lastInsertId) after fun rows =>
              .ok ⟨outcome.rowsAffected, recordsOf s.model rows⟩))) ∧
    (∀ s : Update,
      (∀ q, s.build = .ok q → ∃ condition,
        q.sql = String.ofList (s.assigned.text ++ condition) ∧
        (s.reread q).sql = String.ofList (Select.everyColumn s.model ++ condition)) ∧
      (s.execute c.logged).ComesTo before (.ofBuild s.build before fun q =>
        .ofExec c q before fun outcome after =>
          .ofQuery c (s.reread q) after fun rows =>
            .ok ⟨outcome.rowsAffected, recordsOf s.model rows⟩)) := by
  refine ⟨fun s => ⟨s.comesTo_execute c before, s.comesTo_first c before, s.comesTo_rows c before⟩,
    fun s => s.comesTo_execute c before, fun s => ⟨s.comesTo_execute c before, fun hkey => ?_⟩,
    fun s => ⟨fun q hbuild => (Update.build_ofPredicate hbuild).1, s.comesTo_execute c before⟩⟩
  -- for an insertion the follow-up is known once the name of its key is
  have htrace := s.comesTo_execute c before
  simp only [Insert.build_inserted hkey] at htrace
  exact htrace

namespace Survey

/-- An insertion of an exercise. -/
def addition : Insert := ⟨exercises, .ofList [("title", .string (some "T"))]⟩

/-- Replies to it: a date as the key, and rows with names that are repeated or unknown. -/
def additionReplies : List Reply :=
  [.outcome ⟨1, .date (some "2024-02-29")⟩,
    .rows [⟨[("id", .text none), ("title", .text (some "T")), ("id", .int64 (some 7))]⟩,
      ⟨[("state", .boolean none)]⟩]]

/-- What it comes to. -/
def additionTrace : Trace Script Mutation where
  result := .ok ⟨1, [⟨exercises, [("id", .int64 (some 7)), ("title", .text (some "T"))], []⟩,
    ⟨exercises, [], []⟩]⟩
  state :=
    { replies := []
      calls := [.exec ⟨"INSERT INTO \"exercises\" (\"title\") VALUES (?)", [.text (some "T")]⟩,
        .query ⟨"SELECT * FROM \"exercises\" WHERE \"id\" = ?", [.text (some "2024-02-29")]⟩] }
  calls := [.exec ⟨"INSERT INTO \"exercises\" (\"title\") VALUES (?)", [.text (some "T")]⟩,
    .query ⟨"SELECT * FROM \"exercises\" WHERE \"id\" = ?", [.text (some "2024-02-29")]⟩]

end Survey

/-- An insertion that is reported under a date, and the query for this key behind it. -/
theorem calls_in_order_addition : '\\' ∉ Survey.addition.model.primaryKey.toList ∧
    (Survey.addition.execute Script.connection.logged).ComesTo
      (Script.ofReplies Survey.additionReplies) Survey.additionTrace := by
  have hkey : '\\' ∉ Survey.addition.model.primaryKey.toList := by decide
  have htrace := ((calls_in_order Script.connection
    (Script.ofReplies Survey.additionReplies)).2.2.1 Survey.addition).2 hkey
  exact ⟨hkey, htrace⟩

end QueryForest
