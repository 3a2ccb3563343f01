import QueryForest.Proofs.Predicate
import QueryForest.Statement.Delete
import QueryForest.Statement.Insert
import QueryForest.Statement.Select
import QueryForest.Statement.Update

namespace QueryForest

/-!
# Placeholders and parameters

A statement is sent as text with placeholders and a list of parameters. They belong together by
their order alone, so every clause has to bring its values at the place where it brings its marks.

* `Statement` — a selection, an insertion, an update or a deletion;
* `Statement.slots` — what its placeholders stand for, from left to right;
* `Statement.Plain` — no backslash in the field names of conditions, no marks and no quotes in
  operators and names of functions;
* `Statement.build_eq` — the plan, the `WHERE` clause and the statement around it;
* `Statement.binds_slots` — a statement that can be built binds its slots.
-/

open Sql (Slot Closed closed_bare closed_quoteName closed_intercalate)

/-! ### Selections -/

/-- A function with a name without marks and quotes. Names of columns and results may hold
anything. -/
def Selection.Plain : Selection → Prop
  | field _ => True
  | function name _ _ => Sql.Bare name.toList

instance : DecidablePred Selection.Plain
  | .field _ => inferInstanceAs (Decidable True)
  | .function name _ _ => inferInstanceAs (Decidable (Sql.Bare name.toList))

/-- A plain item of a select list has no open mark. -/
theorem Selection.closed_text {item : Selection} (h : item.Plain) : Closed item.text := by
  cases item with
  | field name => exact Sql.ColumnReference.closed_text _
  | function name argument alias? =>
    have hopen : Closed ['('] := closed_bare (by decide)
    have hclose : Closed [')'] := closed_bare (by decide)
    have hargument := hopen.append (Sql.closed_quotePath argument.toList)
    have hcall := (closed_bare h).append hargument
    cases alias? with
    | none => exact hcall.append hclose
    | some result =>
      have has : Closed " AS ".toList := closed_bare (by decide)
      exact hcall.append (hclose.append (has.append (closed_quoteName result.toList)))

namespace Select

/-- A number of rows behind its word. -/
def countSlot (word : String) (count : UInt64) : Slot := ⟨word.toList, .ok (.uint64 (some count))⟩

/-- The mark of the largest number of rows. Rows are skipped only behind some limit, so that there
is one whenever rows are skipped. -/
def limitSlots (s : Select) : List Slot :=
  match s.maxRows, s.skippedRows with
  | some count, _ => [countSlot " LIMIT " count]
  | none, some _ => [countSlot " LIMIT " 9223372036854775807]
  | none, none => []

/-- The conditions, the largest number of rows and the number of rows to skip. -/
def slots (s : Select) : List Slot :=
  s.predicate.slots ++ s.limitSlots ++ s.skippedRows.toList.map (countSlot " OFFSET ")

/-- Only plain conditions and plain functions. -/
def Plain (s : Select) : Prop := s.predicate.Plain ∧ ∀ item ∈ s.selections, item.Plain

instance : DecidablePred Plain := fun s =>
  inferInstanceAs (Decidable (s.predicate.Plain ∧ ∀ item ∈ s.selections, item.Plain))

variable {s : Select}

/-- No item of a select list has an open mark. -/
theorem closed_items (h : ∀ item ∈ s.selections, item.Plain) (planned : List PlannedJoin) :
    ∀ text ∈ s.items planned, Closed text := by
  intro text htext
  unfold items at htext
  split at htext
  · split at htext
    · rw [List.mem_singleton] at htext
      rw [htext]
      exact closed_bare (by decide)
    · obtain ⟨m, -, htext⟩ := List.mem_flatMap.mp htext
      obtain ⟨field, -, rfl⟩ := List.mem_map.mp htext
      exact Sql.ColumnReference.closed_text _
  · obtain ⟨item, hitem, rfl⟩ := List.mem_map.mp htext
    exact Selection.closed_text (h item hitem)

/-- A join has no open mark. -/
theorem closed_joinText (j : PlannedJoin) : Closed (joinText j) := by
  have hleftJoin : Closed " LEFT JOIN ".toList := closed_bare (by decide)
  have hinnerJoin : Closed " INNER JOIN ".toList := closed_bare (by decide)
  have hon : Closed " ON ".toList := closed_bare (by decide)
  have heq : Closed " = ".toList := closed_bare (by decide)
  have hleft := Sql.ColumnReference.closed_text (.qualified j.left.1.toList j.left.2.toList)
  have hright := Sql.ColumnReference.closed_text (.qualified j.right.1.toList j.right.2.toList)
  have htable := closed_quoteName j.model.table.toList
  unfold joinText
  cases j.kind with
  | left => exact ((((hleftJoin.append htable).append hon).append hleft).append heq).append hright
  | inner => exact ((((hinnerJoin.append htable).append hon).append hleft).append heq).append hright

/-- A selection has no open mark in front of its conditions. -/
theorem closed_head (h : ∀ item ∈ s.selections, item.Plain) (planned : List PlannedJoin) :
    Closed (s.head planned) := by
  have hselect : Closed "SELECT ".toList := closed_bare (by decide)
  have hfrom : Closed " FROM ".toList := closed_bare (by decide)
  have hcomma : Closed [',', ' '] := closed_bare (by decide)
  have hitems := closed_intercalate hcomma (closed_items h planned)
  have hjoins : Closed (planned.flatMap joinText) := Sql.closed_flatMap fun j _ => closed_joinText j
  exact (((hselect.append hitems).append hfrom).append (closed_quoteName _)).append hjoins

/-- A `GROUP BY` clause has no open mark. -/
theorem closed_groupText (s : Select) : Closed s.groupText := by
  unfold groupText
  split
  · have hword : Closed " GROUP BY ".toList := closed_bare (by decide)
    exact hword.append (Sql.ColumnReference.closed_text _)
  · exact Sql.closed_nil

/-- An `ORDER BY` clause has no open mark. -/
theorem closed_orderText (s : Select) : Closed s.orderText := by
  unfold orderText
  split
  · exact Sql.closed_nil
  · have hword : Closed " ORDER BY ".toList := closed_bare (by decide)
    refine hword.append (closed_intercalate (closed_bare (by decide)) fun text htext => ?_)
    obtain ⟨⟨field, direction⟩, -, rfl⟩ := List.mem_map.mp htext
    have hdirection : Closed (' ' :: direction.keyword.toList) := by
      cases direction with
      | ascending => exact closed_bare (by decide)
      | descending => exact closed_bare (by decide)
    exact (Sql.ColumnReference.closed_text _).append hdirection

/-- A number of rows is sent with one mark behind its word. -/
theorem fits_countClause {word : String} (h : Closed word.toList) (count : Option UInt64) :
    (countClause word count).Fits (count.toList.map (countSlot word)) := by
  cases count with
  | none => exact Sql.Fragment.fits_ofText Sql.closed_nil
  | some count => exact Sql.Fragment.fits_parameter h (.bigUnsigned (some count))

/-- The values of a page are its numbers of rows. -/
theorem values_paging (s : Select) :
    s.paging.values = (s.sentLimit.toList ++ s.skippedRows.toList).map
      fun n => .bigUnsigned (some n) := by
  unfold paging
  rw [Sql.Fragment.values_append]
  cases s.sentLimit <;> cases s.skippedRows <;> rfl

/-- The slots of the limit are those of the number that is sent for it. -/
theorem limitSlots_eq (s : Select) :
    s.limitSlots = s.sentLimit.toList.map (countSlot " LIMIT ") := by
  unfold limitSlots sentLimit
  cases s.maxRows with
  | some count => rfl
  | none => cases s.skippedRows <;> rfl

/-- The numbers of rows are sent with one mark each, the limit in front of the offset. -/
theorem fits_paging (s : Select) :
    s.paging.Fits (s.limitSlots ++ s.skippedRows.toList.map (countSlot " OFFSET ")) := by
  rw [limitSlots_eq]
  exact (fits_countClause (closed_bare (by decide)) s.sentLimit).append
    (fits_countClause (closed_bare (by decide)) s.skippedRows)

/-- The marks of a selection around its `WHERE` clause. -/
theorem fits_around (h : ∀ item ∈ s.selections, item.Plain) (planned : List PlannedJoin)
    {condition : Sql.Fragment} (hcondition : condition.Fits s.predicate.slots) :
    (Sql.Fragment.ofText (s.head planned) ++ condition ++ .ofText (s.groupText ++ s.orderText) ++
      s.paging).Fits s.slots := by
  have hhead := Sql.Fragment.fits_ofText (closed_head h planned)
  have htail := Sql.Fragment.fits_ofText ((closed_groupText s).append (closed_orderText s))
  have hall := ((hhead.append hcondition).append htail).append (fits_paging s)
  rw [List.nil_append, List.append_nil, ← List.append_assoc] at hall
  exact hall

end Select

/-! ### Insertions -/

/-- The mark of a further value in the list of an insertion. -/
def Insert.nextSlot (value : BindValue) : Slot := ⟨", ".toList, value.toScalar⟩

/-- The values of the fields, in the order of the columns in front of them. -/
def Insert.slots (s : Insert) : List Slot :=
  match s.fields.values with
  | [] => []
  | value :: rest =>
    ⟨" (".toList ++ List.intercalate [',', ' '] s.columns ++ ") VALUES (".toList, value.toScalar⟩ ::
      rest.map nextSlot

/-- Values in a list have one mark each, the first one behind the given text. -/
theorem Insert.fits_values {lead : List Char} (hlead : Closed lead) (value : BindValue)
    (rest : List BindValue) :
    (Sql.Fragment.ofText lead ++ .joinWith ", " ((value :: rest).map .parameter)).Fits
      (⟨lead, value.toScalar⟩ :: rest.map nextSlot) := by
  induction rest generalizing lead value with
  | nil => exact Sql.Fragment.fits_parameter hlead value
  | cons next rest ih =>
    have hcomma : Closed ", ".toList := closed_bare (by decide)
    have hrest := ih hcomma next
    have hall := (Sql.Fragment.fits_parameter hlead value).append hrest
    rw [Sql.Fragment.append_assoc] at hall
    exact hall

/-- The list of columns has no open mark. -/
theorem Insert.closed_columns (s : Insert) :
    Closed (" (".toList ++ List.intercalate [',', ' '] s.columns ++ ") VALUES (".toList) := by
  have hopen : Closed " (".toList := closed_bare (by decide)
  have hvalues : Closed ") VALUES (".toList := closed_bare (by decide)
  refine (hopen.append (closed_intercalate (closed_bare (by decide)) fun text htext => ?_)).append
    hvalues
  obtain ⟨name, -, rfl⟩ := List.mem_map.mp htext
  exact closed_quoteName _

/-- The statement of an insertion, before its values are taken to database values. -/
def Insert.written (s : Insert) : Sql.Fragment :=
  Sql.insertion s.model.table s.fields.names s.fields.values

theorem Insert.written_eq (s : Insert) :
    s.written = .ofText ("INSERT INTO ".toList ++ Sql.quoteName s.model.table.toList ++
      " (".toList ++ List.intercalate [',', ' '] s.columns ++ ") VALUES (".toList) ++
        .joinWith ", " (s.fields.values.map .parameter) ++ .ofString ")" := rfl

/-- The fields of an insertion have a value for each column. -/
theorem Insert.insertion?_fields (s : Insert) :
    Sql.insertion? s.model.table s.fields.names s.fields.values = .ok s.written := by
  have hlength : s.fields.names.length = s.fields.values.length := by
    rw [Fields.names, Fields.values, List.length_map, List.length_map]
  exact if_pos hlength

/-- So an insertion is never refused for its number of values. -/
theorem Insert.build_eq (s : Insert) : s.build = s.written.toQuery := by
  unfold build
  rw [insertion?_fields]
  rfl

/-- The marks of an insertion stand for its values, in order. -/
theorem Insert.fits_written (s : Insert) : s.written.Fits s.slots := by
  have hword : Closed "INSERT INTO ".toList := closed_bare (by decide)
  have hhead := Sql.Fragment.fits_ofText (hword.append (closed_quoteName s.model.table.toList))
  have hend : (Sql.Fragment.ofString ")").Fits [] :=
    Sql.Fragment.fits_ofText (closed_bare (by decide))
  rw [written_eq, slots, List.append_assoc, List.append_assoc, ← List.append_assoc " (".toList,
    Sql.Fragment.ofText_append, Sql.Fragment.append_assoc (.ofText _) (.ofText _)]
  cases s.fields.values with
  | nil =>
    have hempty := Sql.Fragment.fits_ofText s.closed_columns
    exact (hhead.append (hempty.append (Sql.Fragment.fits_ofText Sql.closed_nil))).append hend
  | cons value rest =>
    have hall := (hhead.append (fits_values s.closed_columns value rest)).append hend
    rw [List.nil_append, List.append_nil] at hall
    exact hall

/-! ### Updates -/

/-- The mark of an assignment. -/
def Update.assignmentSlot (entry : String × BindValue) : Slot :=
  ⟨Sql.quoteName entry.1.toList ++ " = ".toList, entry.2.toScalar⟩

/-- The values of the fields, and the conditions. -/
def Update.slots (s : Update) : List Slot :=
  s.fields.toList.map assignmentSlot ++ s.predicate.slots

/-- An assignment has one mark, which stands for its value. -/
theorem Update.fits_assignment (entry : String × BindValue) :
    (assignment entry).Fits [assignmentSlot entry] :=
  Sql.Fragment.fits_parameter ((closed_quoteName _).append (closed_bare (by decide))) entry.2

/-- An update up to its `WHERE` clause. -/
def Update.assigned (s : Update) : Sql.Fragment :=
  .ofText ("UPDATE ".toList ++ Sql.quoteName s.model.table.toList ++ " SET ".toList) ++
    .joinWith ", " (s.fields.toList.map assignment)

/-- An update is its assignments with its `WHERE` clause. -/
theorem Update.build_eq (s : Update) :
    s.build = s.predicate.clause >>= fun condition => (s.assigned ++ condition).toQuery := rfl

/-- The marks of the assignments stand for their values, in order. -/
theorem Update.fits_assigned (s : Update) :
    s.assigned.Fits (s.fields.toList.map assignmentSlot) := by
  have hword : Closed "UPDATE ".toList := closed_bare (by decide)
  have hset : Closed " SET ".toList := closed_bare (by decide)
  have hhead := Sql.Fragment.fits_ofText
    ((hword.append (closed_quoteName s.model.table.toList)).append hset)
  have hcomma : Closed ", ".toList := closed_bare (by decide)
  exact hhead.append (Sql.Fragment.fits_joinWith hcomma fits_assignment s.fields.toList)

/-! ### Deletions -/

/-- The conditions. -/
def Delete.slots (s : Delete) : List Slot := s.predicate.slots

/-- A deletion up to its `WHERE` clause. -/
def Delete.target (s : Delete) : Sql.Fragment :=
  .ofText ("DELETE FROM ".toList ++ Sql.quoteName s.model.table.toList)

/-- A deletion has no mark in front of its conditions. -/
theorem Delete.fits_target (s : Delete) : s.target.Fits [] := by
  have hword : Closed "DELETE FROM ".toList := closed_bare (by decide)
  exact Sql.Fragment.fits_ofText (hword.append (closed_quoteName s.model.table.toList))

/-! ### All statements -/

/-- A statement of one of the four kinds. -/
inductive Statement
  | select (s : Select)
  | insert (s : Insert)
  | update (s : Update)
  | delete (s : Delete)

namespace Statement

/-- Writes the statement. -/
def build : Statement → Except Error Query
  | select s => s.build
  | insert s => s.build
  | update s => s.build
  | delete s => s.build

/-- What the placeholders of a statement stand for, from left to right. -/
def slots : Statement → List Slot
  | select s => s.slots
  | insert s => s.slots
  | update s => s.slots
  | delete s => s.slots

/-- No backslash in the field name of a condition, and no mark and no quote in an operator or in the
name of a function. -/
def Plain : Statement → Prop
  | select s => s.Plain
  | insert _ => True
  | update s => s.predicate.Plain
  | delete s => s.predicate.Plain

instance : DecidablePred Plain
  | select s => inferInstanceAs (Decidable s.Plain)
  | insert _ => inferInstanceAs (Decidable True)
  | update s => inferInstanceAs (Decidable s.predicate.Plain)
  | delete s => inferInstanceAs (Decidable s.predicate.Plain)

/-- The condition on the rows of a statement; an insertion has none. -/
def predicate : Statement → Predicate
  | select s => s.predicate
  | insert _ => .empty
  | update s => s.predicate
  | delete s => s.predicate

/-- The joins of a selection in the order of their plan; no other statement has any. -/
def planning : Statement → Except ResolutionError (List PlannedJoin)
  | select s => plan s.model s.joins
  | insert _ | update _ | delete _ => .ok []

/-- The statement up to its `WHERE` clause. -/
def front (planned : List PlannedJoin) : Statement → Sql.Fragment
  | select s => .ofText (s.head planned)
  | insert s => s.written
  | update s => s.assigned
  | delete s => s.target

/-- The statement behind its `WHERE` clause. -/
def back : Statement → Sql.Fragment
  | select s => .ofText (s.groupText ++ s.orderText) ++ s.paging
  | insert _ | update _ | delete _ => .ofText []

/-- The conditions of a plain statement are plain; an insertion has none. -/
theorem Plain.predicate {t : Statement} (h : t.Plain) : t.predicate.Plain := by
  cases t with
  | select s => exact h.1
  | insert s => exact fun c hc => absurd hc List.not_mem_nil
  | update s => exact h
  | delete s => exact h

/-- The plan comes first, then the `WHERE` clause, and the values in the end. -/
theorem build_eq (t : Statement) :
    t.build = t.planning.mapError .resolution >>= fun planned =>
      t.predicate.clause >>= fun condition => (t.front planned ++ condition ++ t.back).toQuery := by
  cases t with
  | select s =>
    show s.build = _
    unfold Select.build
    simp only [Sql.Fragment.append_assoc]
    rfl
  | insert s =>
    show s.build = (s.written ++ .ofText [] ++ .ofText []).toQuery
    rw [s.build_eq, Sql.Fragment.append_ofText_nil, Sql.Fragment.append_ofText_nil]
  | update s =>
    simp only [back, Sql.Fragment.append_ofText_nil]
    exact s.build_eq
  | delete s =>
    simp only [back, Sql.Fragment.append_ofText_nil]
    rfl

/-- The marks of a statement around its `WHERE` clause. -/
theorem fits_around {t : Statement} (h : t.Plain) (planned : List PlannedJoin)
    {condition : Sql.Fragment} (hcondition : condition.Fits t.predicate.slots) :
    (t.front planned ++ condition ++ t.back).Fits t.slots := by
  cases t with
  | select s =>
    have hall := Select.fits_around h.2 planned hcondition
    rw [Sql.Fragment.append_assoc] at hall
    exact hall
  | insert s =>
    -- there is no clause, and so no mark in it
    have hall := s.fits_written.append hcondition
    have hnone : (insert s).predicate.slots = [] := rfl
    rw [hnone, List.append_nil] at hall
    simp only [back, Sql.Fragment.append_ofText_nil]
    exact hall
  | update s =>
    have hall := s.fits_assigned.append hcondition
    simp only [back, Sql.Fragment.append_ofText_nil]
    exact hall
  | delete s =>
    have hall := s.fits_target.append hcondition
    simp only [back, Sql.Fragment.append_ofText_nil]
    exact hall

/-- **Placeholders and parameters agree.** However a statement was put together, if it can be built
then the query has as many parameters as open marks, and each parameter is the value that its mark
stands for. -/
theorem binds_slots (t : Statement) (h : t.Plain) (q : Query) (hq : t.build = .ok q) :
    q.Binds t.slots := by
  obtain ⟨condition, hcondition, hfits⟩ := Predicate.fits_clause h.predicate
  rw [build_eq, hcondition] at hq
  obtain ⟨planned, -, hq⟩ := bind_eq_ok.1 hq
  exact (fits_around h planned hfits).binds hq

end Statement

namespace Survey

/-- A search with question marks and quotes in the names of columns. -/
def search : Select :=
  (((Select.ofSelections ⟨0, "exercises", "id", ["id", "title"], [], [], []⟩
      [.field "title", .function "count" "id" (some "how many?")]).filter
    ⟨"exercises.a\"?\"", "<>", .int (some 3)⟩).filterAny
    [⟨"title", "like", .string (some "x?")⟩, ⟨"state", "=", .string none⟩]).offset 5

/-- The search as it is sent. -/
def sentSearch : Query where
  sql := "SELECT \"title\", count(\"id\") AS \"how many?\" FROM \"exercises\" WHERE " ++
    "\"exercises\".\"a\"\"?\"\"\" <> ? AND (\"title\" like ? OR \"state\" = ?) LIMIT ? OFFSET ?"
  params := [.int32 (some 3), .text (some "x?"), .text none, .uint64 (some 9223372036854775807),
    .uint64 (some 5)]

end Survey

/-- A search with an aggregate, conditions in brackets and rows that are skipped without a limit. -/
theorem Statement.binds_slots_search :
    (select Survey.search).Plain ∧ (select Survey.search).build = .ok Survey.sentSearch ∧
      Survey.sentSearch.Binds (select Survey.search).slots := by
  have hplain : (select Survey.search).Plain := by decide
  have hbuild : (select Survey.search).build = .ok Survey.sentSearch := by decide +kernel
  exact ⟨hplain, hbuild, binds_slots _ hplain _ hbuild⟩

end QueryForest
