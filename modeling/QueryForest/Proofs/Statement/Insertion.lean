import QueryForest.Proofs.Fields
import QueryForest.Proofs.Predicate.Strays
import QueryForest.Proofs.Statement.Calls

namespace QueryForest

/-!
# Reading an inserted row again

An insertion may set the key of the new row, and it is followed by a query for the row with the key
that the database reports. Nothing compares the two.

* `Insert.setAll` — an insertion after a number of assignments;
* `Insert.param_of_build` — the statement sends the last value of a field for its column;
* `Insert.ReadsBy` — an execution reads the row again by a certain key;
* `Insert.readsBy_iff` — this is the key that was set exactly if it is the one that was reported.
-/

namespace Insert

/-! ### What is inserted -/

/-- Sets the fields of a list in order. -/
def setAll (s : Insert) (later : List (String × BindValue)) : Insert :=
  later.foldl (fun s e => s.set e.1 e.2) s

/-- Setting further fields changes the fields of an insertion and nothing else. -/
theorem setAll_mk (model : Model) (fields : Fields) (later : List (String × BindValue)) :
    setAll ⟨model, fields⟩ later = ⟨model, fields.setAll later⟩ := by
  induction later generalizing fields with
  | nil => rfl
  | cons e later ih => exact ih (fields.set e.1 e.2)

/-- An insertion starts with the fields that it is given, and only if there are any. -/
theorem eq_of_ofFields {model : Model} {fields : Fields} {s : Insert}
    (h : ofFields model fields = .ok s) : fields.isEmpty = false ∧ s = ⟨model, fields⟩ := by
  unfold ofFields at h
  cases hempty : fields.isEmpty with
  | true =>
    rw [hempty, if_pos rfl] at h
    cases h
  | false =>
    rw [hempty, if_neg Bool.false_ne_true] at h
    cases h
    exact ⟨rfl, rfl⟩

/-- An insertion that was started has all fields that were set before and after that. -/
theorem setAll_ofFields {model : Model} {entries : List (String × BindValue)} {s : Insert}
    (h : ofFields model (.ofList entries) = .ok s) (later : List (String × BindValue)) :
    s.setAll later = ⟨model, .ofList (entries ++ later)⟩ := by
  rw [(eq_of_ofFields h).2, setAll_mk, Fields.ofList_append]

/-- The values of an insertion are those of its fields. -/
theorem values_written (s : Insert) : s.written.values = s.fields.values := by
  have hvalues : (Sql.Fragment.joinWith ", " (s.fields.values.map .parameter)).values =
      s.fields.values := by
    rw [Sql.Fragment.values_joinWith, List.flatMap_map]
    exact List.flatMap_singleton' s.fields.values
  rw [written_eq, Sql.Fragment.values_append, Sql.Fragment.values_append, hvalues]
  exact List.append_nil _

variable {s : Insert} {q : Query}

/-- The parameters of an insertion are the values of its fields. -/
theorem params_of_build (h : s.build = .ok q) : scalarsOf s.fields.values = .ok q.params := by
  rw [build_eq] at h
  rw [← values_written]
  exact (Sql.Fragment.toQuery_eq_ok.1 h).2

/-- The value of a field is sent for its column. -/
theorem param_of_build (h : s.build = .ok q) {field : String} {value : BindValue} {sent : Scalar}
    (hvalue : s.fields.get? field = some value) (hsent : value.toScalar? = some sent) :
    ∃ i : Nat, s.columns[i]? = some (Sql.quoteName field.toList) ∧ q.params[i]? = some sent := by
  obtain ⟨i, hname, hplace⟩ := Fields.exists_place hvalue
  obtain ⟨param, hparam, hscalar⟩ := getElem?_of_scalarsOf (params_of_build h) hplace
  rw [hsent] at hscalar
  cases hscalar
  refine ⟨i, ?_, hparam⟩
  rw [columns, List.getElem?_map, hname]
  rfl

end Insert

/-! ### What is read again -/

/-- The predicate that a field equals a value which was read. -/
def Predicate.rebinding (field : String) (value : Scalar) : Predicate :=
  ⟨[⟨.and, [.equal field value.toBind]⟩]⟩

/-- The parameters of a query by a predicate are those of its clause. -/
theorem Select.clause_of_build {model : Model} {p : Predicate} {q : Query}
    (h : (ofPredicate model p).build = .ok q) :
    ∃ condition, p.clause = .ok condition ∧ scalarsOf condition.values = .ok q.params := by
  have hbuilt := h
  unfold build at hbuilt
  obtain ⟨planned, -, hbuilt⟩ := bind_eq_ok.1 hbuilt
  obtain ⟨condition, hcondition, -⟩ := bind_eq_ok.1 hbuilt
  have hclause : p.clause = .ok condition := hcondition
  have hquery := (build_ofPredicate model hclause).symm.trans h
  exact ⟨condition, hclause, (Sql.Fragment.toQuery_eq_ok.1 hquery).2⟩

/-- The query for a value that was read has no other parameter, whatever is read as its mark. -/
theorem Select.params_rebinding {model : Model} {field : String} {value : Scalar} {q : Query}
    (h : (ofPredicate model (.rebinding field value)).build = .ok q) :
    ∀ param ∈ q.params, param = value.rebound := by
  have hconditions : (Predicate.rebinding field value).conditions = [.equal field value.toBind] :=
    rfl
  have hoperator : ∀ c ∈ (Predicate.rebinding field value).conditions,
      Sql.Neutral c.operator.toList := by
    intro c hc
    obtain rfl := List.mem_singleton.1 hc
    show Sql.Neutral "=".toList
    decide
  obtain ⟨text, hclause⟩ := Predicate.clause_eq hoperator
  obtain ⟨condition, hcondition, hparams⟩ := clause_of_build h
  rw [hcondition] at hclause
  split at hclause
  · cases hclause
    rw [hconditions] at hparams
    -- there is one condition, and its value is taken or it is not
    generalize (Predicate.rebinding field value).seen.length +
      (Predicate.rebinding field value).strays = n at hparams
    intro param hparam
    obtain ⟨bound, hbound, hsent⟩ := exists_of_mem_mapM hparams hparam
    have htaken : bound = value.toBind := by
      obtain ⟨c, hc, rfl⟩ := List.mem_map.1 hbound
      rw [List.mem_singleton.1 (List.mem_of_mem_take hc)]
      rfl
    rw [htaken, Scalar.toScalar_toBind] at hsent
    exact (Except.ok.inj hsent).symm
  · cases hclause

namespace Insert

/-- The query for a reported key has no other parameter. -/
theorem param_inserted {s : Insert} {key param : Scalar} {again : Query}
    (h : (s.inserted key).build = .ok again) (hparam : again.params = [param]) :
    param = key.rebound :=
  Select.params_rebinding h param (hparam ▸ List.mem_singleton_self param)

end Insert

/-- A run comes to one trace only. -/
theorem Run.ComesTo.unique {σ α : Type} {run : Run (σ × List Call) α} {before : σ}
    {t u : Trace σ α} (ht : run.ComesTo before t) (hu : run.ComesTo before u) : t = u := by
  obtain ⟨result, state, calls⟩ := t
  obtain ⟨result', state', calls'⟩ := u
  have heq : (result, state, [] ++ calls) = (result', state', [] ++ calls') :=
    (ht []).symm.trans (hu [])
  rw [List.nil_append, List.nil_append] at heq
  cases heq
  rfl

/-- One query is one call, whether it fails or not. -/
theorem Trace.calls_ofQuery {σ α : Type} (c : Connection σ) (q : Query) (before : σ)
    (read : List Row → Except Error α) : (ofQuery c q before read).calls = [.query q] := by
  unfold ofQuery
  rcases c.query q before with ⟨answer, after⟩
  cases answer with
  | error report => rfl
  | ok rows => rfl

namespace Insert

/-- An execution inserts the row and reads it again by a key, up to some equality of values. -/
def ReadsBy {σ : Type} (s : Insert) (equal : Scalar → Scalar → Bool) (c : Connection σ) (before : σ)
    (key : Scalar) : Prop :=
  ∃ t q again param, (s.execute c.logged).ComesTo before t ∧ t.calls = [.exec q, .query again] ∧
    again.params = [param] ∧ equal param key = true

section Execution

variable {σ : Type} {s : Insert} {q : Query} {c : Connection σ} {before after : σ}
  {outcome : Outcome}

/-- Behind an insertion that succeeds there is the query for the key that was reported, if it can be
built. -/
theorem calls_of_exec (hbuild : s.build = .ok q) (hexec : c.exec q before = (.ok outcome, after)) :
    ∃ t, (s.execute c.logged).ComesTo before t ∧
      t.calls = .exec q :: (s.inserted outcome.lastInsertId).build.toOption.toList.map .query := by
  have htrace := s.comesTo_execute c before
  rw [hbuild] at htrace
  refine ⟨_, htrace, ?_⟩
  unfold Trace.ofBuild Trace.ofExec
  simp only [hexec]
  cases (s.inserted outcome.lastInsertId).build with
  | error e => rfl
  | ok again =>
    show Call.exec q :: (Trace.ofQuery c again after _).calls = _
    rw [Trace.calls_ofQuery]
    rfl

/-- **The key that is read again** is the one that was reported. -/
theorem readsBy_iff_reported (equal : Scalar → Scalar → Bool) (hbuild : s.build = .ok q)
    (hexec : c.exec q before = (.ok outcome, after)) (key : Scalar) :
    (Sql.SettledPath s.model.primaryKey.toList →
      (s.ReadsBy equal c before key ↔ equal outcome.lastInsertId.rebound key = true)) ∧
    (s.ReadsBy equal c before key → equal outcome.lastInsertId.rebound key = true) := by
  obtain ⟨t, ht, hcalls⟩ := calls_of_exec hbuild hexec
  -- the second call is the query for the reported key, and nothing that was set goes into it
  have hreported : s.ReadsBy equal c before key →
      equal outcome.lastInsertId.rebound key = true := by
    rintro ⟨u, q', again, param, hu, hlog, hparam, hequal⟩
    rw [hu.unique ht, hcalls] at hlog
    cases hagain : (s.inserted outcome.lastInsertId).build with
    | error e =>
      rw [hagain] at hlog
      cases hlog
    | ok other =>
      rw [hagain] at hlog
      cases hlog
      rw [← param_inserted hagain hparam]
      exact hequal
  refine ⟨fun hsettled => ⟨hreported, fun hequal => ?_⟩, hreported⟩
  rw [build_inserted_of_settled hsettled] at hcalls
  exact ⟨t, q, _, _, ht, hcalls, rfl, hequal⟩

end Execution

/-- **Reading an inserted row again.** An insertion that sets the primary key sends the last value
set for it, and reads the row again by that value exactly if the database reports that very value as
the identity of the row. This is about any equality of values, and a key column whose name can be
quoted; by a value that was not reported no row is read again whatever the name. -/
theorem readsBy_iff {σ : Type} (equal : Scalar → Scalar → Bool) {model : Model}
    {entries later : List (String × BindValue)} {start : Insert}
    (hstart : ofFields model (.ofList entries) = .ok start) {value : BindValue} {sent : Scalar}
    (hvalue : Assoc.last? model.primaryKey (entries ++ later) = some value)
    (hsent : value.toScalar? = some sent) {q : Query}
    (hbuild : (start.setAll later).build = .ok q) (c : Connection σ) {before after : σ}
    {outcome : Outcome} (hexec : c.exec q before = (.ok outcome, after)) :
    (∃ i : Nat, (start.setAll later).columns[i]? = some (Sql.quoteName model.primaryKey.toList) ∧
      q.params[i]? = some sent) ∧
    (Sql.SettledPath model.primaryKey.toList →
      ((start.setAll later).ReadsBy equal c before sent ↔
        equal outcome.lastInsertId.rebound sent = true)) ∧
    ((start.setAll later).ReadsBy equal c before sent →
      equal outcome.lastInsertId.rebound sent = true) := by
  have hkey : (start.setAll later).fields.get? model.primaryKey = some value := by
    rw [setAll_ofFields hstart, Fields.get?_ofList]
    exact hvalue
  have hmodel : (start.setAll later).model = model := by rw [setAll_ofFields hstart]
  -- the rest does not depend on what the insertion was built from
  have hreads := readsBy_iff_reported equal hbuild hexec sent
  rw [hmodel] at hreads
  exact ⟨param_of_build hbuild hkey hsent, hreads⟩

end Insert

namespace Survey

/-- Two keys for an exercise, one after the other. -/
def twoKeys : List (String × BindValue) := [("id", .bigInt (some 5)), ("id", .bigInt (some 7))]

/-- The insertion of an exercise with these keys, as it is sent. -/
def sentKeyed : Query :=
  ⟨"INSERT INTO \"exercises\" (\"title\", \"id\") VALUES (?, ?)",
    [.text (some "T"), .int64 (some 7)]⟩

/-- A reply to an insertion that reports a key. -/
def reporting (key : Int64) : Script := .ofReplies [.outcome ⟨1, .int64 (some key)⟩, .rows []]

end Survey

/-- The last of two keys is reported, and the row is read again by it. -/
theorem Insert.readsBy_iff_keyed : (Survey.addition.setAll Survey.twoKeys).ReadsBy Scalar.same
    Script.connection (Survey.reporting 7) (.int64 (some 7)) := by
  have hstart : ofFields Survey.exercises (.ofList [("title", .string (some "T"))]) =
      .ok Survey.addition := rfl
  have hvalue : Assoc.last? Survey.exercises.primaryKey
      ([("title", .string (some "T"))] ++ Survey.twoKeys) = some (.bigInt (some 7)) := rfl
  have hbuild : (Survey.addition.setAll Survey.twoKeys).build = .ok Survey.sentKeyed := by
    decide +kernel
  have hexec : Script.connection.exec Survey.sentKeyed (Survey.reporting 7) =
      (.ok ⟨1, .int64 (some 7)⟩, ⟨[.rows []], [.exec Survey.sentKeyed]⟩) := rfl
  have hsettled : Sql.SettledPath Survey.exercises.primaryKey.toList := by decide +kernel
  have hreads := readsBy_iff Scalar.same hstart hvalue rfl hbuild Script.connection hexec
  exact (hreads.2.1 hsettled).2 (by decide)

namespace Survey

/-- Ingredients, with a code as their key. -/
def ingredients : Model := ⟨0, "kitchen", "code", ["code", "a"], [], [], []⟩

/-- An insertion of an ingredient. -/
def stocking : Insert := ⟨ingredients, .ofList [("code", .string (some "K1")), ("a", .int (some 1))]⟩

/-- The insertion as it is sent. -/
def sentStocking : Query :=
  ⟨"INSERT INTO \"kitchen\" (\"code\", \"a\") VALUES (?, ?)", [.text (some "K1"), .int32 (some 1)]⟩

/-- The calls if the database reports a number as the identity of the row. -/
def stockingCalls : List Call :=
  [.exec sentStocking,
    .query ⟨"SELECT * FROM \"kitchen\" WHERE \"code\" = ?", [.int64 (some 1)]⟩]

end Survey

/-- A row with a code as its key is not read again by that code. -/
theorem Insert.not_readsBy_stocking :
    Survey.stocking.fields.get? "code" = some (.string (some "K1")) ∧
      (Survey.stocking.execute Script.connection.logged).ComesTo (Survey.reporting 1)
        ⟨.ok ⟨1, []⟩, ⟨[], Survey.stockingCalls⟩, Survey.stockingCalls⟩ ∧
      ¬ Survey.stocking.ReadsBy Scalar.same Script.connection (Survey.reporting 1)
        (.text (some "K1")) := by
  have hbuild : Survey.stocking.build = .ok Survey.sentStocking := by decide +kernel
  have hexec : Script.connection.exec Survey.sentStocking (Survey.reporting 1) =
      (.ok ⟨1, .int64 (some 1)⟩, ⟨[.rows []], [.exec Survey.sentStocking]⟩) := rfl
  refine ⟨by decide, ?_, fun hreads => ?_⟩
  · exact Survey.stocking.comesTo_execute Script.connection (Survey.reporting 1)
  · have hequal := (readsBy_iff_reported Scalar.same hbuild hexec (.text (some "K1"))).2 hreads
    exact absurd hequal (by decide)

end QueryForest
