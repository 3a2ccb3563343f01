import QueryForest.Proofs.Row.Fetching
import QueryForest.Proofs.Statement.Affected
import QueryForest.Proofs.Statement.Insertion
import QueryForest.Proofs.Store.ReadBack

namespace QueryForest

/-!
# Keys that were read

A value that was read can be bound again. It is sent as it is, but for dates and times, which are
sent as their text, and the store does not tell these apart. So a key that was read from a row is
stored as what the row has for it, and a query for it finds that row.

* `Scalar.toStored_rebound`, `StoredValue.toStored_of_toScalar` — the values on their way from the
  store and back to it;
* `StoredRow` and `Sql.store` — the connection to a table of the store, where rows hold stored
  values;
* `StoredRow.Identified` — a row whose key is no other row's;
* `Select.execute_rebinding` — a query for a key that was read gives the row from which it was read;
* `keys_identify` — all of that, for the two statements that take such a key.
-/

/-! ### Values that are sent again -/

namespace Scalar

/-- A value is NULL when it is sent again exactly if it was. -/
theorem isNull_rebound (value : Scalar) : value.rebound.isNull = value.isNull := by
  cases value with
  | date v | time v | timestamp v => cases v <;> rfl
  | _ => rfl

/-- A value that is sent again is stored as before: the store has dates and times as text. -/
theorem toStored_rebound (value : Scalar) : value.rebound.toStored = value.toStored := by
  cases value with
  | date v | time v | timestamp v => cases v <;> rfl
  | _ => rfl

/-- A value is sent again as it was, or as text if it is a date or a time. -/
theorem rebound_eq (value : Scalar) : value.rebound = value ∨
    ∃ v, value ∈ [date v, time v, timestamp v] ∧ value.rebound = text v := by
  cases value with
  | date v | time v | timestamp v => exact .inr ⟨v, by simp, rfl⟩
  | _ => exact .inl rfl

end Scalar

namespace StoredValue

/-- Whether a stored value can be read: the bytes of a text are UTF-8. -/
def IsReadable : StoredValue → Prop
  | text utf8 => (⟨utf8.toArray⟩ : ByteArray).IsValidUTF8
  | _ => True

/-- A stored value is read exactly if it is readable. -/
theorem exists_toScalar_iff {stored : StoredValue} :
    (∃ value, stored.toScalar = .ok value) ↔ stored.IsReadable := by
  cases stored with
  | text utf8 =>
    simp only [toScalar, IsReadable, String.fromUTF8?]
    by_cases hvalid : (⟨utf8.toArray⟩ : ByteArray).IsValidUTF8
    · simp [hvalid]
    · simp [hvalid]
  | _ => exact iff_of_true ⟨_, rfl⟩ trivial

/-- A value that was read is stored as what it was read from. -/
theorem toStored_of_toScalar {stored : StoredValue} {value : Scalar}
    (h : stored.toScalar = .ok value) : value.toStored = stored := by
  cases stored with
  | text utf8 =>
    simp only [toScalar, String.fromUTF8?] at h
    by_cases hvalid : (⟨utf8.toArray⟩ : ByteArray).IsValidUTF8
    · rw [dif_pos hvalid] at h
      cases h
      show text utf8.toArray.toList = text utf8
      rw [List.toList_toArray]
    · rw [dif_neg hvalid] at h
      cases h
  | _ =>
    cases h
    rfl

end StoredValue

/-! ### A table of the store -/

/-- A row of a table of the store: stored values under different names, in column order. -/
structure StoredRow where
  fields : List (String × StoredValue)
  nodup : (fields.map Prod.fst).Nodup := by decide

namespace StoredRow

variable {row : StoredRow} {rows : List StoredRow} {found : Row} {column : String}

/-- What is read from a row. -/
def read (row : StoredRow) : Except StoreError Row := Session.readRow row.fields

/-- The value of a column. -/
def value? (row : StoredRow) (column : String) : Option StoredValue := Assoc.get? column row.fields

/-- Whether the value of a column is taken for the same as one that was sent. -/
def Has (same : StoredValue → StoredValue → Bool) (column : String) (sent : StoredValue)
    (row : StoredRow) : Bool :=
  (row.value? column).any (same · sent)

/-- The fields of a row are read one by one. -/
theorem fields_of_read (h : row.read = .ok found) :
    row.fields.mapM (fun field => field.2.toScalar.map (field.1, ·)) = .ok found.fields := by
  unfold read Session.readRow at h
  obtain ⟨fields, hfields, rfl⟩ := map_eq_ok.1 h
  exact hfields

/-- A row is read under the names it was stored with. -/
theorem names_read (h : row.read = .ok found) :
    found.fields.map Prod.fst = row.fields.map Prod.fst := by
  have hnames : List.Forall₂ (· = ·) (row.fields.map Prod.fst) (found.fields.map Prod.fst) := by
    refine List.forall₂_map_left_iff.2 (List.forall₂_map_right_iff.2 ?_)
    refine (mapM_eq_ok.1 (fields_of_read h)).imp fun stored field hfield => ?_
    obtain ⟨value, -, rfl⟩ := map_eq_ok.1 hfield
    rfl
  rw [List.forall₂_eq_eq_eq] at hnames
  exact hnames.symm

/-- What is read in a column is stored as the value of the column. -/
theorem value?_of_read (h : row.read = .ok found) {value : Scalar}
    (hvalue : found.last? column = some value) : row.value? column = some value.toStored := by
  obtain ⟨field, hfield, rfl⟩ := List.mem_map.1 (List.mem_of_getLast? hvalue)
  obtain ⟨hfield, hname⟩ := List.mem_filter.1 hfield
  obtain ⟨stored, hstored, hstep⟩ := exists_of_mem_mapM (fields_of_read h) hfield
  obtain ⟨value, hread, rfl⟩ := map_eq_ok.1 hstep
  show row.value? column = some value.toStored
  rw [StoredValue.toStored_of_toScalar hread, ← eq_of_beq hname]
  exact Assoc.get?_of_mem row.nodup hstored

/-- A row of a table with a key that is no other row's: `same` takes it for the same as itself, as
it does not take NULL, and the keys of two rows are never the same. -/
structure Identified (same : StoredValue → StoredValue → Bool) (column : String)
    (rows : List StoredRow) (row : StoredRow) : Prop where
  mem : row ∈ rows
  self : ∀ key, row.value? column = some key → same key key = true
  apart : rows.Pairwise fun a b => ∀ x, a.value? column = some x → ∀ y, b.value? column = some y →
    same x y = false ∧ same y x = false

/-- No row is found for a key that differs from the keys of all rows. -/
theorem filter_has_of_apart {same : StoredValue → StoredValue → Bool} {key : StoredValue}
    (h : ∀ other ∈ rows, ∀ x, other.value? column = some x → same x key = false) :
    rows.filter (Has same column key) = [] := by
  refine List.filter_eq_nil_iff.2 fun other hmem => ?_
  unfold Has
  cases hx : other.value? column with
  | none => exact Bool.false_ne_true
  | some x =>
    rw [Option.any_some, h other hmem x hx]
    exact Bool.false_ne_true

/-- The rows with the key of a row are that row alone. -/
theorem Identified.filter_has {same : StoredValue → StoredValue → Bool}
    (h : row.Identified same column rows) {key : StoredValue} (hkey : row.value? column = some key) :
    rows.filter (Has same column key) = [row] := by
  obtain ⟨before, after, rfl⟩ := List.append_of_mem h.mem
  obtain ⟨-, hrest, hbefore⟩ := List.pairwise_append.1 h.apart
  rw [List.pairwise_cons] at hrest
  have hself : Has same column key row = true := by
    unfold Has
    rw [hkey]
    exact h.self key hkey
  have hnone : before.filter (Has same column key) = [] :=
    filter_has_of_apart fun other hmem x hx =>
      (hbefore other hmem row List.mem_cons_self x hx key hkey).1
  have hnone' : after.filter (Has same column key) = [] :=
    filter_has_of_apart fun other hmem x hx => (hrest.1 other hmem key hkey x hx).2
  rw [List.filter_append, List.filter_cons_of_pos hself]
  rw [hnone, hnone', List.nil_append]

end StoredRow

namespace Sql

/-- Whether a clause selects a row of the store, when each atom compares a column with its
parameter. -/
def Clause.picks (same : StoredValue → StoredValue → Bool) (name : String) (clause : Clause)
    (params : List StoredValue) (row : StoredRow) : Bool :=
  clause.all fun f => f.holds (fun i => (f.atoms[i]?).any fun atom => (params[i]?).any fun sent =>
    (comparedColumn? name atom).any fun column => row.Has same (String.ofList column) sent) 0

/-- The connection to a table of the store, whose rows are the state. A selection gives what is read
from the rows that its clause selects, where `same` compares a value of a column with one that was
sent; what a change of the table does is left open. -/
def store (same : StoredValue → StoredValue → Bool) (name : String)
    (change : Query → List StoredRow → Except String Outcome × List StoredRow) :
    Connection (List StoredRow) where
  exec := change
  query q rows :=
    match readSelection? name q.sql with
    | some clause =>
      (((rows.filter (clause.picks same name (q.params.map Scalar.toStored))).mapM
        StoredRow.read).mapError StoreError.message, rows)
    | none => (.error StoreError.prepare.message, rows)

end Sql

/-! ### Names of keys -/

/-- Whether a name is one piece of a path that is read as it is: without a dot or a backslash, and
not a star. -/
def Sql.IsPiece (name : String) : Prop :=
  '.' ∉ name.toList ∧ '\\' ∉ name.toList ∧ name.toList ≠ ['*']

instance (name : String) : Decidable (Sql.IsPiece name) :=
  inferInstanceAs (Decidable ('.' ∉ name.toList ∧ '\\' ∉ name.toList ∧ name.toList ≠ ['*']))

namespace Condition

variable {model : Model} {column : String} {value : BindValue}

/-- A condition on the bare name of a column. -/
theorem onColumn_equal (model : Model) (value : BindValue) (h : Sql.IsPiece column) :
    (equal column value).OnColumn model ∧ (equal column value).column? model = some column := by
  obtain ⟨hdot, hescape, hstar⟩ := h
  have hsplit : (equal column value).field.toList.splitOn '.' = [column.toList] :=
    List.splitOn_eq_singleton hdot
  have hcolumn : (equal column value).column? model = some column := by
    unfold column?
    rw [hsplit]
    simp
  refine ⟨⟨rfl, by rw [hcolumn]; rfl, hescape, ?_⟩, hcolumn⟩
  rw [hsplit, List.mem_singleton]
  exact hstar.symm

/-- A condition on a column behind the name of its table. -/
theorem onColumn_qualified (htable : Sql.IsPiece model.table) (h : Sql.IsPiece column) :
    (equal (model.qualified column) value).OnColumn model ∧
      (equal (model.qualified column) value).column? model = some column := by
  obtain ⟨hdot, hescape, hstar⟩ := h
  obtain ⟨hdot', hescape', hstar'⟩ := htable
  have hfield : (equal (model.qualified column) value).field.toList =
      model.table.toList ++ '.' :: column.toList := by
    simp [equal, Model.qualified]
  -- neither name has a dot, so that there are two pieces
  have hsplit : (equal (model.qualified column) value).field.toList.splitOn '.' =
      [model.table.toList, column.toList] := by
    rw [hfield, List.splitOn_append_cons_self_of_not_mem hdot', List.splitOn_eq_singleton hdot]
  have hcolumn : (equal (model.qualified column) value).column? model = some column := by
    unfold column?
    rw [hsplit]
    simp
  refine ⟨⟨rfl, by rw [hcolumn]; rfl, ?_, ?_⟩, hcolumn⟩
  · rw [hfield]
    simp [hescape, hescape']
  · rw [hsplit]
    simp [hstar.symm, hstar'.symm]

end Condition

/-! ### Queries for a key -/

/-- One row is one record. -/
theorem recordsOf_singleton (model : Model) (row : Row) :
    recordsOf model [row] = [row.record model] :=
  recordsOf_of_keysApart (List.pairwise_singleton _ _)

namespace Select

variable {model : Model} {field column : String} {value : Scalar}

/-- A query for a value that was read gives what is read from the rows that have the value. -/
theorem query_rebinding (h : (Condition.equal field value.toBind).OnColumn model)
    (hcolumn : (Condition.equal field value.toBind).column? model = some column) :
    ∃ q, (ofPredicate model (.rebinding field value)).build = .ok q ∧
      ∀ same change rows, (Sql.store same model.table change).query q rows =
        (((rows.filter (StoredRow.Has same column value.toStored)).mapM StoredRow.read).mapError
          StoreError.message, rows) := by
  have hne : ∀ s ∈ (Predicate.rebinding field value).segments, s.conditions ≠ [] := by
    intro s hs
    rw [List.mem_singleton.1 hs]
    exact List.cons_ne_nil _ _
  have hall : ∀ c ∈ (Predicate.rebinding field value).conditions, c.OnColumn model := by
    intro c hc
    rw [List.mem_singleton.1 hc]
    exact h
  obtain ⟨condition, hcondition, hvalues, hspace, hclause⟩ := Predicate.readClause?_clause hne hall
  have hparams : scalarsOf condition.values = .ok [value.rebound] := by
    rw [hvalues]
    exact scalarsOf_eq_ok_iff.2 (.cons value.toScalar_toBind .nil)
  let q : Query := ⟨String.ofList (everyColumn model ++ condition.text), [value.rebound]⟩
  have hbuild : (ofPredicate model (.rebinding field value)).build = .ok q := by
    rw [build_ofPredicate model hcondition]
    exact Sql.Fragment.toQuery_eq_ok.2 ⟨rfl, hparams⟩
  refine ⟨q, hbuild, fun same change rows => ?_⟩
  have hread : Sql.readSelection? model.table q.sql =
      some (Predicate.rebinding field value).formula? :=
    readSelection?_everyColumn model hspace hclause
  -- the clause is one atom, which compares the column with the value that is sent
  have hpicks : Sql.Clause.picks same model.table (Predicate.rebinding field value).formula?
      (q.params.map Scalar.toStored) = StoredRow.Has same column value.toStored := by
    funext row
    have hcompared := h.comparedColumn?
    rw [hcolumn] at hcompared
    obtain ⟨name, hname, hname'⟩ := Option.map_eq_some_iff.1 hcompared
    show ((Sql.comparedColumn? model.table (Condition.equal field value.toBind).lexemes).any
      fun column => row.Has same (String.ofList column) value.rebound.toStored) = _
    rw [hname, Option.any_some, hname', value.toStored_rebound]
  unfold Sql.store
  simp only [hread, hpicks]

/-- **A key that was read finds its row**, and no other. -/
theorem execute_rebinding (h : (Condition.equal field value.toBind).OnColumn model)
    (hcolumn : (Condition.equal field value.toBind).column? model = some column)
    (same : StoredValue → StoredValue → Bool)
    (change : Query → List StoredRow → Except String Outcome × List StoredRow)
    {rows : List StoredRow} {row : StoredRow} {found : Row}
    (hrow : row.Identified same column rows) (hread : row.read = .ok found)
    (hvalue : found.last? column = some value) (mode : FetchMode) :
    ((ofPredicate model (.rebinding field value)).executeIn (Sql.store same model.table change)
      mode).run.run rows = (.ok [found.record model], rows) := by
  obtain ⟨q, hbuild, hquery⟩ := query_rebinding h hcolumn
  have hrows := hquery same change rows
  rw [hrow.filter_has (row.value?_of_read hread hvalue), List.mapM_cons, hread] at hrows
  have hfound : (Sql.store same model.table change).query q rows = (.ok [found], rows) := hrows
  -- the row has no name twice, so it does not matter what becomes of such names
  have hfetch : found.fetch mode = found.fetch .assoc := by
    cases mode with
    | assoc => rfl
    | named =>
      refine found.fetch_named_of_nodup ?_
      rw [StoredRow.names_read hread]
      exact row.nodup
  have hassemble := assemble_unjoined model [found]
  rw [List.map_singleton, recordsOf_singleton, ← hfetch] at hassemble
  rw [executeIn_eq hbuild mode hfound]
  show ((assemble model [] [found.fetch mode]).mapError Error.resolution, rows) = _
  rw [hassemble]
  rfl

end Select

/-- **The row of an insertion is found** by the key that was reported, if that is what is read as
the key of the row. -/
theorem Insert.execute_store {s : Insert} (h : Sql.IsPiece s.model.primaryKey) {q : Query}
    (hbuild : s.build = .ok q) (same : StoredValue → StoredValue → Bool)
    {change : Query → List StoredRow → Except String Outcome × List StoredRow}
    {before rows : List StoredRow} {outcome : Outcome}
    (hexec : change q before = (.ok outcome, rows)) {row : StoredRow} {found : Row}
    (hrow : row.Identified same s.model.primaryKey rows) (hread : row.read = .ok found)
    (hvalue : found.last? s.model.primaryKey = some outcome.lastInsertId) :
    (s.execute (Sql.store same s.model.table change)).run.run before =
      (.ok ⟨outcome.rowsAffected, [found.record s.model]⟩, rows) := by
  obtain ⟨hcondition, hcolumn⟩ :=
    Condition.onColumn_equal s.model outcome.lastInsertId.toBind h
  have hreread := Select.execute_rebinding hcondition hcolumn same change hrow hread hvalue .assoc
  have hanswer : (Sql.store same s.model.table change).exec q before = (.ok outcome, rows) := hexec
  unfold execute
  rw [Run.run_bind (Run.run_ofExcept hbuild before), Run.run_bind (Run.run_call hanswer)]
  exact Run.run_bind hreread

/-- **What was read can be sent again.** A value that was read is sent as it is, or as its text if it
is a date or a time; it stays NULL or not, and is stored as before. Whatever the store has and can
be read is stored as the same again. So the parameters of a query for a key that was read are stored
as that key, whatever the names are; and where the names of the table and of its key are single
pieces, the query gives the row from which the key was read, and so does the query that follows an
insertion for which that key was reported. -/
theorem keys_identify (model : Model) :
    (∀ value : Scalar, value.toBind.toScalar = .ok value.rebound ∧
      (value.rebound = value ∨ ∃ v, value ∈ [.date v, .time v, .timestamp v] ∧
        value.rebound = .text v) ∧
      value.rebound.isNull = value.isNull ∧ value.rebound.toStored = value.toStored) ∧
    (∀ stored : StoredValue, stored.IsReadable ↔ ∃ value sent, stored.toScalar = .ok value ∧
      value.toBind.toScalar = .ok sent ∧ sent.toStored = stored) ∧
    (∀ (stored : StoredValue) value, stored.toScalar = .ok value →
      (∀ q, (Select.find model value.toBind).build = .ok q →
        ∀ param ∈ q.params, param.toStored = stored) ∧
      ∀ (fields : Fields) q, ((Insert.mk model fields).inserted value).build = .ok q →
        ∀ param ∈ q.params, param.toStored = stored) ∧
    ∀ (same : StoredValue → StoredValue → Bool)
      (change : Query → List StoredRow → Except String Outcome × List StoredRow)
      (rows : List StoredRow) (row : StoredRow) (found : Row) (value : Scalar),
      row.Identified same model.primaryKey rows → row.read = .ok found →
      found.last? model.primaryKey = some value → Sql.IsPiece model.primaryKey →
      (Sql.IsPiece model.table →
        ((Select.find model value.toBind).execute (Sql.store same model.table change)).run.run rows =
          (.ok [found.record model], rows)) ∧
      ∀ (fields : Fields) q before outcome, (Insert.mk model fields).build = .ok q →
        change q before = (.ok outcome, rows) → outcome.lastInsertId = value →
        ((Insert.mk model fields).execute (Sql.store same model.table change)).run.run before =
          (.ok ⟨outcome.rowsAffected, [found.record model]⟩, rows) := by
  -- a date is sent as text, but is stored as the text it was read from
  have hstored : ∀ (stored : StoredValue) value, stored.toScalar = .ok value →
      value.rebound.toStored = stored := by
    intro stored value hread
    rw [value.toStored_rebound, StoredValue.toStored_of_toScalar hread]
  refine ⟨fun value => ?_, fun stored => ?_, fun stored value hread => ?_, ?_⟩
  · exact ⟨value.toScalar_toBind, value.rebound_eq, value.isNull_rebound, value.toStored_rebound⟩
  · rw [← StoredValue.exists_toScalar_iff]
    constructor
    · rintro ⟨value, hread⟩
      exact ⟨value, _, hread, value.toScalar_toBind, hstored stored value hread⟩
    · rintro ⟨value, sent, hread, -, -⟩
      exact ⟨value, hread⟩
  · constructor
    · -- the only parameter of either query is the key, whatever the text around it means
      intro q hbuild param hparam
      rw [Select.params_rebinding hbuild param hparam, hstored stored value hread]
    · intro fields q hbuild param hparam
      rw [Select.params_rebinding hbuild param hparam, hstored stored value hread]
  · intro same change rows row found value hrow hread hvalue hkey
    constructor
    · -- the text is read back, so that the names have to be single pieces
      intro htable
      obtain ⟨hcondition, hcolumn⟩ := Condition.onColumn_qualified htable hkey
      exact Select.execute_rebinding hcondition hcolumn same change hrow hread hvalue .named
    · rintro fields q before outcome hbuild hexec rfl
      exact Insert.execute_store (s := ⟨model, fields⟩) hkey hbuild same hexec hrow hread hvalue

namespace Survey

/-- An ingredient with a text as its code. -/
def labelled : StoredRow :=
  ⟨[("code", .text [0x4b, 0xc3, 0xa9, 0x22]), ("a", .null)], by decide⟩

/-- An ingredient with a number as its code. -/
def numbered : StoredRow := ⟨[("code", .integer (-1)), ("a", .real ⟨0x7ff0000000000000⟩)], by decide⟩

/-- Equality of stored values, where a NULL is not even equal to itself. -/
def equalStored (a b : StoredValue) : Bool := a == b && a != .null

/-- A table into which the first row is inserted, and which reports the code of the second one. -/
def reportsSecond (_ : Query) (rows : List StoredRow) : Except String Outcome × List StoredRow :=
  (.ok ⟨1, .int64 (some (-1))⟩, labelled :: rows)

/-- The first row as it is read. -/
def labelledRow : Row := ⟨[("code", .text (some "Ké\"")), ("a", .text none)]⟩

/-- The second row as it is read. -/
def numberedRow : Row :=
  ⟨[("code", .int64 (some (-1))), ("a", .double (some ⟨0x7ff0000000000000⟩))]⟩

/-- The insertion of the first row. -/
def labelling : Insert := ⟨ingredients, .ofList [("code", .string (some "Ké\""))]⟩

end Survey

/-- A row is found by its text, and the row whose number is reported is found behind an insertion. -/
theorem keys_identify_shelf :
    Survey.labelled.Identified Survey.equalStored "code" [Survey.labelled, Survey.numbered] ∧
    ((Select.find Survey.ingredients (Scalar.text (some "Ké\"")).toBind).execute
        (Sql.store Survey.equalStored "kitchen" Survey.reportsSecond)).run.run
          [Survey.labelled, Survey.numbered] =
      (.ok [Survey.labelledRow.record Survey.ingredients], [Survey.labelled, Survey.numbered]) ∧
    (Survey.labelling.execute
        (Sql.store Survey.equalStored "kitchen" Survey.reportsSecond)).run.run [Survey.numbered] =
      (.ok ⟨1, [Survey.numberedRow.record Survey.ingredients]⟩,
        [Survey.labelled, Survey.numbered]) := by
  have hidentify := (keys_identify Survey.ingredients).2.2.2 Survey.equalStored Survey.reportsSecond
    [Survey.labelled, Survey.numbered]
  have hkey : Sql.IsPiece Survey.ingredients.primaryKey := by decide
  have hlabelled : Survey.labelled.Identified Survey.equalStored "code"
      [Survey.labelled, Survey.numbered] := ⟨by simp, by decide, by decide⟩
  have hnumbered : Survey.numbered.Identified Survey.equalStored "code"
      [Survey.labelled, Survey.numbered] := ⟨by simp, by decide, by decide⟩
  have hbuild : Survey.labelling.build =
      .ok ⟨"INSERT INTO \"kitchen\" (\"code\") VALUES (?)", [.text (some "Ké\"")]⟩ := by rfl
  refine ⟨hlabelled, ?_, ?_⟩
  · exact (hidentify _ Survey.labelledRow _ hlabelled rfl rfl hkey).1 (by decide)
  · exact (hidentify _ Survey.numberedRow _ hnumbered rfl rfl hkey).2 Survey.labelling.fields _
      [Survey.numbered] _ hbuild rfl rfl

end QueryForest
