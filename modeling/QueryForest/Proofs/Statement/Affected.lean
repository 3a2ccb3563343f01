import QueryForest.Proofs.Fields
import QueryForest.Proofs.Forest.Provenance
import QueryForest.Proofs.Forest.WellFormed
import QueryForest.Proofs.Predicate.Meaning
import QueryForest.Proofs.Sql.Table
import QueryForest.Proofs.Statement.Calls

namespace QueryForest

/-!
# The rows of an update

An update gives records back: those of the rows that satisfy its predicate after the update. They
are the rows that it changed only where these still satisfy the predicate, and keep different keys.

* `Condition.OnColumn` — a condition that a column of the table equals a value;
* `Predicate.satisfiedBy` — whether a row satisfies a predicate, by the meaning of its segments;
* `Update.changed` — the rows that an update changes, as they are after it;
* `Update.run_table` — the run of an update against a table;
* `Update.records_changed_iff` — when the records are those of the changed rows.
-/

open Sql (Lexeme Formula Lexes lexes_char)

/-! ### Conditions on columns -/

namespace Condition

/-- The column that a condition is about: a name alone, or a name behind the name of the table. -/
def column? (model : Model) (c : Condition) : Option String :=
  match c.field.toList.splitOn '.' with
  | [column] => some (String.ofList column)
  | [target, column] =>
    if target = model.table.toList then some (String.ofList column) else none
  | _ => none

/-- A condition that a column of the table equals a value. -/
structure OnColumn (model : Model) (c : Condition) : Prop where
  operator_eq : c.operator = "="
  column : (c.column? model).isSome = true
  no_escape : '\\' ∉ c.field.toList
  no_star : ['*'] ∉ c.field.toList.splitOn '.'

/-- Whether a row has an equal value in the column of a condition. -/
def satisfiedBy (equal : Scalar → Scalar → Bool) (model : Model) (row : Row) (c : Condition) :
    Bool :=
  ((c.column? model).bind row.last?).any fun value => (c.value.toScalar?).any (equal value)

variable {model : Model} {c : Condition}

/-- A condition on a column of the table is plain. -/
theorem OnColumn.plain (h : c.OnColumn model) : c.Plain := by
  have hbare : Sql.Bare "=".toList := by decide
  exact ⟨h.no_escape, h.operator_eq ▸ hbare⟩

/-- A condition on a column of the table is inert. -/
theorem OnColumn.inert (h : c.OnColumn model) : c.Inert := by
  unfold Inert
  rw [h.operator_eq]
  refine ⟨fun x hx => ?_, by decide⟩
  obtain rfl : x = '=' := List.mem_singleton.1 hx
  rfl

/-- A database reads the column of a condition. -/
theorem OnColumn.comparedColumn? (h : c.OnColumn model) :
    (Sql.comparedColumn? model.table c.lexemes).map String.ofList = c.column? model := by
  have hoperator : Sql.lexemes c.operator.toList = [.sign '='] := by
    rw [h.operator_eq]
    decide
  have hcolumn := h.column
  have hstar := h.no_star
  have hpiece : ∀ piece, piece ≠ ['*'] → Sql.pieceLexeme piece = .quoted '"' piece :=
    fun piece hne => if_neg hne
  unfold lexemes Sql.pathLexemes
  unfold column? at hcolumn ⊢
  rw [hoperator]
  generalize c.field.toList.splitOn '.' = pieces at hcolumn hstar ⊢
  -- a column, or a table and a column; any other path was excluded
  match pieces with
  | [] => cases hcolumn
  | [column] =>
    have hname : column ≠ ['*'] := fun heq => hstar (by rw [heq]; exact List.mem_cons_self)
    rw [List.map_singleton, hpiece column hname]
    rfl
  | [target, column] =>
    have htarget : target ≠ ['*'] := fun heq => hstar (by rw [heq]; exact List.mem_cons_self)
    have hname : column ≠ ['*'] := fun heq => hstar (by rw [heq]; simp)
    rw [List.map_cons, List.map_singleton, hpiece target htarget, hpiece column hname]
    show (if target = model.table.toList then some column else none).map String.ofList =
      if target = model.table.toList then some (String.ofList column) else none
    by_cases htable : target = model.table.toList
    · rw [if_pos htable, if_pos htable]
      rfl
    · rw [if_neg htable, if_neg htable]
      rfl
  | _ :: _ :: _ :: _ => cases hcolumn

end Condition

namespace Predicate

/-- Whether a row satisfies a predicate: its segments mean so, or there are none. -/
def satisfiedBy (equal : Scalar → Scalar → Bool) (model : Model) (p : Predicate) (row : Row) :
    Bool :=
  p.isEmpty ||
    meaning (fun i => (p.conditions[i]?).any (Condition.satisfiedBy equal model row)) p.segments

variable {model : Model} {p : Predicate}

/-- A clause starts with its word, or there is none. -/
theorem head?_clause_ne_comma {p : Predicate} {condition : Sql.Fragment}
    (h : p.clause = .ok condition) :
    (Sql.lexemes condition.text).head? ≠ some (.sign ',') := by
  cases hempty : p.isEmpty with
  | true =>
    rw [clause_of_isEmpty hempty] at h
    cases h
    decide
  | false =>
    rw [clause_of_isEmpty_eq_false hempty] at h
    generalize Sql.Fragment.bound _ = bound at h
    cases bound with
    | error e => cases h
    | ok filled =>
      cases h
      -- whatever the conditions are, their clause is led by a word
      have hword : Lexes .between " WHERE ".toList [.word ['W', 'H', 'E', 'R', 'E']] .between :=
        fun _ => rfl
      have hlexemes : Sql.lexemes (" WHERE ".toList ++ filled.text) =
          .word ['W', 'H', 'E', 'R', 'E'] :: Sql.lexemes filled.text := hword filled.text
      show (Sql.lexemes (" WHERE ".toList ++ filled.text)).head? ≠ _
      rw [hlexemes]
      simp

/-- The `WHERE` clause of conditions on columns can be written, and is read as the formula of the
predicate. -/
theorem readClause?_clause (hne : ∀ s ∈ p.segments, s.conditions ≠ [])
    (h : ∀ c ∈ p.conditions, c.OnColumn model) :
    ∃ condition, p.clause = .ok condition ∧ condition.values = p.values ∧
      (condition.text = [] ∨ ∃ rest, condition.text = ' ' :: rest) ∧
      Sql.readClause? (Sql.lexemes condition.text) = some p.formula? := by
  cases hempty : p.isEmpty with
  | true =>
    obtain ⟨segments⟩ := p
    have hnil : segments = [] := List.isEmpty_iff.1 hempty
    subst hnil
    exact ⟨_, rfl, rfl, .inl rfl, rfl⟩
  | false =>
    let text := segmentsText (1 < p.segments.length) p.segments
    have hcompile : p.compile? = some ⟨text, p.values⟩ := by
      unfold compile?
      rw [hempty]
      rfl
    have hclause : p.clause = .ok (Sql.Fragment.ofString " WHERE " ++ ⟨text, p.values⟩) := by
      unfold clause
      rw [hcompile]
      show (Sql.Fragment.bound ⟨text, p.values⟩).map _ = _
      rw [bound_compiled fun c hc => (h c hc).plain]
      rfl
    -- what the clause was compiled to is read as the formula of the predicate
    obtain ⟨f, hformula, hparse⟩ := parse_compiled hne (fun c hc => (h c hc).inert) hcompile
    have hlexemes : Sql.lexemes (" WHERE ".toList ++ text) =
        .word ['W', 'H', 'E', 'R', 'E'] :: Sql.lexemes text := rfl
    refine ⟨_, hclause, rfl, .inr ⟨_, rfl⟩, ?_⟩
    show Sql.readClause? (Sql.lexemes (" WHERE ".toList ++ text)) = _
    rw [hlexemes, hformula]
    show (Sql.read? (Sql.lexemes text)).map some = _
    rw [show Sql.read? (Sql.lexemes text) = some f from hparse]
    rfl

/-- A database selects the rows that satisfy the predicate. -/
theorem selects_formula? (hne : ∀ s ∈ p.segments, s.conditions ≠ [])
    (h : ∀ c ∈ p.conditions, c.OnColumn model) (equal : Scalar → Scalar → Bool)
    {params : List Scalar} (hparams : scalarsOf p.values = .ok params) (row : Row) :
    Sql.Clause.selects equal model.table p.formula? params row =
      p.satisfiedBy equal model row := by
  unfold Sql.Clause.selects satisfiedBy
  cases hformula : p.formula? with
  | none =>
    obtain ⟨segments⟩ := p
    cases segments with
    | nil => rfl
    | cons s rest => cases hformula
  | some f =>
    obtain ⟨hatoms, hholds⟩ := holds_formula? hne hformula
    have hnonempty : p.isEmpty = false := by
      obtain ⟨segments⟩ := p
      cases segments with
      | nil => cases hformula
      | cons s rest => rfl
    -- each atom is true where its condition is satisfied, as both take the parameter at its place
    have htruth : (fun i : Nat => (f.atoms[i]?).any fun atom =>
        (params[i]?).any (Sql.atomHolds equal model.table row atom)) =
          fun i => (p.conditions[i]?).any (Condition.satisfiedBy equal model row) := by
      funext i
      rw [hatoms, List.getElem?_map]
      cases hcondition : p.conditions[i]? with
      | none => rfl
      | some c =>
        have hc := h c (List.mem_of_getElem? hcondition)
        have hvalue : p.values[i]? = some c.value := by
          rw [values_eq, List.getElem?_map, hcondition]
          rfl
        obtain ⟨param, hparam, hscalar⟩ := getElem?_of_scalarsOf hparams hvalue
        show (params[i]?).any (Sql.atomHolds equal model.table row c.lexemes) =
          c.satisfiedBy equal model row
        unfold Sql.atomHolds Condition.satisfiedBy
        rw [hparam, hscalar, ← hc.comparedColumn?]
        cases Sql.comparedColumn? model.table c.lexemes <;> rfl
    rw [hnonempty, Bool.false_or, ← hholds]
    show f.holds _ 0 = _
    rw [htruth]

end Predicate

/-! ### The text of an update -/

/-- The lexemes of assignments to columns. -/
def assignmentLexemes : List (List Char) → List Lexeme
  | [] => []
  | [column] => [.quoted '"' column, .sign '=', .sign '?']
  | column :: rest =>
    .quoted '"' column :: .sign '=' :: .sign '?' :: .sign ',' :: assignmentLexemes rest

/-- Assignments are read as their columns, up to the first lexeme that is no comma. -/
theorem readAssignments?_lexemes {columns : List (List Char)} (hne : columns ≠ [])
    {rest : List Lexeme} (hrest : rest.head? ≠ some (.sign ',')) :
    Sql.readAssignments? (assignmentLexemes columns ++ rest) = some (columns, rest) := by
  induction columns with
  | nil => exact absurd rfl hne
  | cons column more ih =>
    cases more with
    | nil =>
      show Sql.readAssignments? (.quoted '"' column :: .sign '=' :: .sign '?' :: rest) = _
      have hbehind : ∀ more, rest = .sign ',' :: more → False := fun more heq =>
        hrest (by rw [heq]; rfl)
      rw [Sql.readAssignments?]
      exact hbehind
    | cons next more =>
      have hmore := ih (List.cons_ne_nil _ _)
      show Sql.readAssignments? (.quoted '"' column :: .sign '=' :: .sign '?' :: .sign ',' ::
        (assignmentLexemes (next :: more) ++ rest)) = _
      rw [Sql.readAssignments?, hmore]
      rfl

/-- A name between double quotes ends where a space follows it. -/
theorem lexes_name (name : List Char) :
    Lexes .between (Sql.quoteName name ++ [' ']) [.quoted '"' name] .between :=
  (Sql.lexes_quoteName name).append (lexes_char ' ' (.closed '"' name))

namespace Update

/-- One assignment is cut into its column, the sign and the mark. -/
theorem lexes_assignment (entry : String × BindValue) :
    Lexes .between (assignment entry).text (assignmentLexemes [entry.1.toList]) .between := by
  have hbehind : Lexes .between ['=', ' ', '?'] [.sign '=', .sign '?'] .between := fun _ => rfl
  have hall := (lexes_name entry.1.toList).append hbehind
  rw [List.append_assoc] at hall
  have htext : (assignment entry).text =
      Sql.quoteName entry.1.toList ++ ([' '] ++ ['=', ' ', '?']) := by
    show Sql.quoteName entry.1.toList ++ " = ".toList ++ ['?'] = _
    rw [List.append_assoc]
    rfl
  rw [htext]
  exact hall

/-- Assignments are cut into their lexemes with commas between them. -/
theorem lexes_assignments (entry : String × BindValue) (rest : List (String × BindValue)) :
    Lexes .between (Sql.Fragment.joinWith ", " ((entry :: rest).map assignment)).text
      (assignmentLexemes ((entry :: rest).map (·.1.toList))) .between := by
  induction rest generalizing entry with
  | nil => exact lexes_assignment entry
  | cons next rest ih =>
    have hcomma : Lexes .between ", ".toList [.sign ','] .between := fun _ => rfl
    exact ((lexes_assignment entry).append hcomma).append (ih next)

/-- The statement up to its conditions is cut into its words, its table and its assignments. -/
theorem lexes_assigned {s : Update} (h : s.fields.isEmpty = false) :
    Lexes .between s.assigned.text
      (.word ['U', 'P', 'D', 'A', 'T', 'E'] :: .quoted '"' s.model.table.toList ::
        .word ['S', 'E', 'T'] :: assignmentLexemes (s.fields.toList.map (·.1.toList)))
      .between := by
  obtain ⟨entry, rest, hentries⟩ : ∃ entry rest, s.fields.toList = entry :: rest :=
    List.exists_cons_of_ne_nil (Fields.toList_ne_nil h)
  have hupdate : Lexes .between "UPDATE ".toList [.word ['U', 'P', 'D', 'A', 'T', 'E']] .between :=
    fun _ => rfl
  have hset : Lexes .between "SET ".toList [.word ['S', 'E', 'T']] .between := fun _ => rfl
  have hassignments := lexes_assignments entry rest
  have hall := ((hupdate.append (lexes_name s.model.table.toList)).append hset).append hassignments
  have htext : s.assigned.text = "UPDATE ".toList ++
      (Sql.quoteName s.model.table.toList ++ [' ']) ++ "SET ".toList ++
        (Sql.Fragment.joinWith ", " ((entry :: rest).map assignment)).text := by
    unfold assigned
    rw [Sql.Fragment.text_append, hentries]
    show "UPDATE ".toList ++ Sql.quoteName s.model.table.toList ++ ([' '] ++ "SET ".toList) ++ _ = _
    simp only [List.append_assoc]
  rw [htext, hentries]
  exact hall

/-- A database reads the columns and the clause of an update. -/
theorem readUpdate?_assigned {s : Update} (h : s.fields.isEmpty = false) {condition : List Char}
    (hcomma : (Sql.lexemes condition).head? ≠ some (.sign ',')) {clause : Sql.Clause}
    (hclause : Sql.readClause? (Sql.lexemes condition) = some clause) :
    Sql.readUpdate? s.model.table (String.ofList (s.assigned.text ++ condition)) =
      some (s.fields.toList.map (·.1.toList), clause) := by
  have hlexemes : Sql.lexemes (s.assigned.text ++ condition) = _ := lexes_assigned h condition
  have hcolumns : s.fields.toList.map (·.1.toList) ≠ [] :=
    mt List.map_eq_nil_iff.1 (Fields.toList_ne_nil h)
  unfold Sql.readUpdate?
  rw [String.toList_ofList, hlexemes]
  show (if s.model.table.toList = s.model.table.toList then _ else none) = _
  rw [if_pos rfl]
  show (Sql.readAssignments? (assignmentLexemes _ ++ Sql.lexemes condition)).bind _ = _
  rw [readAssignments?_lexemes hcolumns hcomma, Option.bind_some]
  show (Sql.readClause? (Sql.lexemes condition)).map _ = _
  rw [hclause]
  rfl

end Update

/-- A database reads the clause of a selection of all columns. -/
theorem Select.readSelection?_everyColumn (model : Model) {condition : List Char}
    (hspace : condition = [] ∨ ∃ rest, condition = ' ' :: rest) {clause : Sql.Clause}
    (hclause : Sql.readClause? (Sql.lexemes condition) = some clause) :
    Sql.readSelection? model.table (String.ofList (everyColumn model ++ condition)) =
      some clause := by
  have hselect : Lexes .between "SELECT * FROM ".toList
      [.word ['S', 'E', 'L', 'E', 'C', 'T'], .sign '*', .word ['F', 'R', 'O', 'M']] .between :=
    fun _ => rfl
  have hhead := hselect.append (Sql.lexes_quoteName model.table.toList)
  have hlexemes : Sql.lexemes (everyColumn model ++ condition) =
      .word ['S', 'E', 'L', 'E', 'C', 'T'] :: .sign '*' :: .word ['F', 'R', 'O', 'M'] ::
        .quoted '"' model.table.toList :: Sql.lexemes condition := by
    refine (hhead condition).trans ?_
    -- the quote behind the table is closed by the space of the clause, or by the end
    rcases hspace with rfl | ⟨rest, rfl⟩
    · rfl
    · rfl
  unfold Sql.readSelection?
  rw [String.toList_ofList, hlexemes]
  show (if model.table.toList = model.table.toList then _ else none) = _
  rw [if_pos rfl]
  exact hclause

/-! ### Records of single rows -/

/-- The record of a row without relations. -/
def Row.record (model : Model) (row : Row) : Record :=
  ⟨model, foundEntries row.last? model.fields, []⟩

/-- A row of a table without relations is grouped as its own record. -/
theorem grouped_singleton (model : Model) (row : Row) :
    (Layout.ofModel model).grouped (Layout.ofModel model).root [row.fetch .assoc] =
      row.record model := by
  have hreading : (fun field => (Layout.ofModel model).reading (Layout.ofModel model).root field
      (row.fetch .assoc)) = row.last? := by
    funext field
    exact Layout.reading_fetch_assoc row _ field
  rw [Layout.grouped_eq _ List.head?_cons, Layout.fieldsOf, hreading]
  rfl

/-- There are at most as many records as rows. -/
theorem length_recordsOf_le (model : Model) (rows : List Row) :
    (recordsOf model rows).length ≤ rows.length := by
  unfold recordsOf Layout.forest
  rw [List.length_map]
  refine (length_groupsBy_le _ _).trans ?_
  rw [List.length_map]

/-- Records that are read from rows have different primary keys. -/
theorem keysApart_recordsOf (model : Model) (rows : List Row) : KeysApart (recordsOf model rows) :=
  Layout.keysApart_grouped _ _

/-- Rows with different keys have one record each. -/
theorem recordsOf_of_keysApart {model : Model} {rows : List Row}
    (h : KeysApart (rows.map (Row.record model))) :
    recordsOf model rows = rows.map (Row.record model) := by
  have hkey : ∀ row : Row, (row.record model).primaryKey? =
      (Layout.ofModel model).key? (Layout.ofModel model).root (row.fetch .assoc) := by
    intro row
    rw [← grouped_singleton]
    exact Layout.primaryKey?_grouped _ List.head?_cons _
  -- rows with different keys are groups of their own
  have hpairwise : (rows.map (Row.fetch .assoc)).Pairwise fun a b =>
      sameKey ((Layout.ofModel model).key? (Layout.ofModel model).root) a b = false := by
    refine List.pairwise_map.2 ((List.pairwise_map.1 h).imp fun {a b} hab => ?_)
    unfold sameKey
    rw [← hkey, ← hkey]
    cases ha : (a.record model).primaryKey? with
    | none => rfl
    | some x =>
      cases hb : (b.record model).primaryKey? with
      | none => rfl
      | some y => exact hab x ha y hb
  unfold recordsOf Layout.forest
  rw [groupsBy_of_pairwise hpairwise, List.map_map, List.map_map]
  exact List.map_congr_left fun row _ => grouped_singleton model row

/-! ### The run of an update -/

namespace Update

/-- The columns of an update with their new values. -/
def entries (s : Update) : List (String × Scalar) :=
  s.fields.toList.filterMap fun e => e.2.toScalar?.map (e.1, ·)

/-- Whether an update changes a row. -/
def changes (equal : Scalar → Scalar → Bool) (s : Update) (row : Row) : Bool :=
  s.predicate.satisfiedBy equal s.model row

/-- The rows that an update changes, as they are after it. -/
def changed (equal : Scalar → Scalar → Bool) (s : Update) (rows : List Row) : List Row :=
  (rows.filter (s.changes equal)).map (Row.overwrite s.entries)

/-- All rows after an update. -/
def applied (equal : Scalar → Scalar → Bool) (s : Update) (rows : List Row) : List Row :=
  Sql.overwriteRows (s.changes equal) s.entries rows

/-- After an update the predicate selects what it still selects of the changed rows: the others did
not satisfy it, and stay as they are. -/
theorem filter_applied (equal : Scalar → Scalar → Bool) (s : Update) (rows : List Row) :
    (s.applied equal rows).filter (s.changes equal) =
      (s.changed equal rows).filter (s.changes equal) := by
  unfold applied changed Sql.overwriteRows
  induction rows with
  | nil => rfl
  | cons row rest ih =>
    cases hrow : s.changes equal row with
    | true => simp [hrow, List.filter_cons, ih]
    | false => simp [hrow, ih]

/-- The columns of an update meet the parameters of its assignments. -/
theorem zip_eq_entries {s : Update} {more : List BindValue} {params : List Scalar}
    (h : scalarsOf (s.fields.values ++ more) = .ok params) :
    ((s.fields.toList.map (·.1.toList)).map String.ofList).zip params = s.entries := by
  unfold Fields.values at h
  unfold entries Fields.toList
  generalize s.fields.entries = fields at h ⊢
  induction fields generalizing params with
  | nil => rfl
  | cons e rest ih =>
    obtain ⟨param, others, hparam, hothers, rfl⟩ := scalarsOf_cons h
    have hrest := ih hothers
    rw [List.map_map] at hrest
    simp [BindValue.toScalar_eq_ok.1 hparam, hrest]

/-- As many rows are changed as satisfy the conditions. -/
theorem length_changed (equal : Scalar → Scalar → Bool) (s : Update) (rows : List Row) :
    (s.changed equal rows).length = rows.countP (s.changes equal) := by
  unfold changed
  rw [List.length_map, List.countP_eq_length_filter]

variable {s : Update}

/-- The database overwrites the rows that satisfy the predicate, and the same selection of the
predicate finds those that satisfy it after that. -/
theorem table_answers (hfields : s.fields.isEmpty = false)
    (hne : ∀ t ∈ s.predicate.segments, t.conditions ≠ [])
    (h : ∀ c ∈ s.predicate.conditions, c.OnColumn s.model) {sent : Query}
    (hbuild : s.build = .ok sent) (equal : Scalar → Scalar → Bool) :
    (∀ rows, (Sql.table equal s.model.table).exec sent rows =
      (.ok ⟨UInt64.ofNat (s.changed equal rows).length, .int64 (some 0)⟩,
        s.applied equal rows)) ∧
    ∀ rows, (Sql.table equal s.model.table).query (s.reread sent) rows =
      (.ok (rows.filter (s.changes equal)), rows) := by
  obtain ⟨condition, hcondition, hvalues, hspace, hclause⟩ := Predicate.readClause?_clause hne h
  have hcomma := Predicate.head?_clause_ne_comma hcondition
  rw [build_eq, hcondition] at hbuild
  obtain ⟨hsql, hparams⟩ := Sql.Fragment.toQuery_eq_ok.1 hbuild
  rw [Sql.Fragment.text_append] at hsql
  rw [Sql.Fragment.values_append, values_assigned, hvalues] at hparams
  have hsize : s.fields.values.length = s.fields.size := List.length_map _
  -- the parameters of the predicate stand behind those of the assignments
  have hbound := scalarsOf_append hparams
  rw [hsize] at hbound
  have hselects : Sql.Clause.selects equal s.model.table s.predicate.formula?
      (sent.params.drop s.fields.size) = s.changes equal :=
    funext fun row => Predicate.selects_formula? hne h equal hbound row
  constructor
  · intro rows
    have hread : Sql.readUpdate? s.model.table sent.sql =
        some (s.fields.toList.map (·.1.toList), s.predicate.formula?) := by
      rw [hsql]
      exact readUpdate?_assigned hfields hcomma hclause
    have hcolumns : (s.fields.toList.map (·.1.toList)).length = s.fields.size := List.length_map _
    unfold Sql.table applied
    simp only [hread, hcolumns, hselects, zip_eq_entries hparams, length_changed]
  · intro rows
    have hread : Sql.readSelection? s.model.table (s.reread sent).sql =
        some s.predicate.formula? := by
      rw [sql_reread hsql]
      exact Select.readSelection?_everyColumn s.model hspace hclause
    unfold Sql.table
    simp only [hread]
    show (Except.ok (rows.filter (Sql.Clause.selects equal s.model.table s.predicate.formula?
      (sent.params.drop s.fields.size))), rows) = _
    rw [hselects]

/-- **The run of an update.** The rows that satisfy the predicate are overwritten and counted, and
the records are those of the rows that satisfy it after that. -/
theorem run_table (hfields : s.fields.isEmpty = false)
    (hne : ∀ t ∈ s.predicate.segments, t.conditions ≠ [])
    (h : ∀ c ∈ s.predicate.conditions, c.OnColumn s.model) {sent : Query}
    (hbuild : s.build = .ok sent) (equal : Scalar → Scalar → Bool) (rows : List Row) :
    (s.execute (Sql.table equal s.model.table)).run.run rows =
      (.ok ⟨UInt64.ofNat (s.changed equal rows).length,
        recordsOf s.model ((s.changed equal rows).filter (s.changes equal))⟩,
          s.applied equal rows) := by
  obtain ⟨hexec, hquery⟩ := table_answers hfields hne h hbuild equal
  have hselect := Select.executeIn_eq (build_ofPredicate hbuild).2 .assoc
    (hquery (s.applied equal rows))
  -- what is found among all rows is what is found among the changed ones
  rw [filter_applied] at hselect
  have hrecords : ((Select.ofPredicate s.model s.predicate).executeIn
      (Sql.table equal s.model.table) .assoc).run.run (s.applied equal rows) =
        (.ok (recordsOf s.model ((s.changed equal rows).filter (s.changes equal))),
          s.applied equal rows) := by
    refine hselect.trans (congrArg (·, s.applied equal rows) ?_)
    exact Select.read_ofPredicate s.model s.predicate _
  unfold execute
  rw [Run.run_bind (Run.run_ofExcept hbuild rows), Run.run_bind (Run.run_call (hexec rows)),
    Run.run_bind hrecords]
  rfl

/-- **When the records are those of the changed rows.** An update counts the rows that it changes,
and gives a record for each of them exactly if all of them satisfy the predicate after the update as
well and no two of them have the same key then. -/
theorem records_changed_iff (model : Model) {fields : Fields} (hfields : fields.isEmpty = false)
    {pushes : List (Connective × List Condition)}
    (h : ∀ c ∈ pushes.flatMap Prod.snd, c.OnColumn model) {sent : Query}
    (hbuild : (Update.mk model fields (.ofPushes pushes)).build = .ok sent)
    (equal : Scalar → Scalar → Bool) (rows : List Row) :
    let s : Update := ⟨model, fields, .ofPushes pushes⟩
    let changed := s.changed equal rows
    (s.execute (Sql.table equal model.table)).run.run rows =
        (.ok ⟨UInt64.ofNat changed.length, changed.map (Row.record model)⟩,
          s.applied equal rows) ↔
      (∀ row ∈ changed, s.changes equal row = true) ∧
        KeysApart (changed.map (Row.record model)) := by
  intro s changed
  have hrun := run_table (s := s) hfields
    (by rw [Predicate.segments_ofPushes]; exact Predicate.conditions_ne_nil_of_pushes)
    (by rw [Predicate.conditions_ofPushes]; exact h) hbuild equal rows
  have hiff : (s.execute (Sql.table equal model.table)).run.run rows =
      (.ok ⟨UInt64.ofNat changed.length, changed.map (Row.record model)⟩, s.applied equal rows) ↔
        recordsOf model (changed.filter (s.changes equal)) = changed.map (Row.record model) := by
    rw [hrun]
    refine ⟨fun heq => ?_, fun heq => by rw [heq]⟩
    exact (Mutation.mk.inj (Except.ok.inj (Prod.mk.inj heq).1)).2
  rw [hiff]
  constructor
  · intro hrecords
    -- there are at most as many records as rows that still satisfy the predicate
    have hle := length_recordsOf_le model (changed.filter (s.changes equal))
    rw [hrecords, List.length_map] at hle
    refine ⟨List.length_filter_eq_length_iff.1 (le_antisymm (List.length_filter_le _ _) hle), ?_⟩
    rw [← hrecords]
    exact keysApart_recordsOf model _
  · rintro ⟨hall, hkeys⟩
    rw [List.filter_eq_self.2 hall]
    exact recordsOf_of_keysApart hkeys

end Update

namespace Survey

/-- An update of the title of the exercises with a value in a column. -/
def retitling (column : String) (value : BindValue) : Update :=
  ⟨exercises, .ofList [("title", .string (some "U"))],
    .ofPushes [(.and, [.equal column value])]⟩

/-- The row of an exercise. -/
def titled (key : Int64) (title : String) : Row :=
  ⟨[("id", .int64 (some key)), ("title", .text (some title))]⟩

end Survey

/-- An update by a key gives the row that it changes. -/
theorem Update.records_changed_iff_retitling :
    ((Survey.retitling "id" (.bigInt (some 9))).execute (Sql.table Scalar.same "exercises")).run.run
        [Survey.titled 9 "T", Survey.titled 10 "T"] =
      (.ok ⟨1, [(Survey.titled 9 "U").record Survey.exercises]⟩,
        [Survey.titled 9 "U", Survey.titled 10 "T"]) := by
  have hcolumn : ∀ c ∈ [(Connective.and, [Condition.equal "id" (.bigInt (some 9))])].flatMap
      Prod.snd, c.OnColumn Survey.exercises := by
    intro c hc
    obtain rfl : c = .equal "id" (.bigInt (some 9)) := by simpa using hc
    exact ⟨rfl, by decide, by decide, by decide⟩
  have hbuild : (Survey.retitling "id" (.bigInt (some 9))).build =
      .ok ⟨"UPDATE \"exercises\" SET \"title\" = ? WHERE \"id\" = ?",
        [.text (some "U"), .int64 (some 9)]⟩ := by rfl
  have hall : ∀ row ∈ [Survey.titled 9 "U"],
      (Survey.retitling "id" (.bigInt (some 9))).changes Scalar.same row = true := by decide
  exact (records_changed_iff Survey.exercises (by decide) hcolumn hbuild Scalar.same
    [Survey.titled 9 "T", Survey.titled 10 "T"]).2 ⟨hall, List.pairwise_singleton _ _⟩

/-- An update of the column that its predicate is about gives none of the rows that it changes: they
are counted, but do not satisfy the predicate any more. -/
theorem Update.records_lost_retitling :
    (Survey.retitling "title" (.string (some "T"))).changed Scalar.same [Survey.titled 9 "T"] =
        [Survey.titled 9 "U"] ∧
      ((Survey.retitling "title" (.string (some "T"))).execute
        (Sql.table Scalar.same "exercises")).run.run [Survey.titled 9 "T"] =
          (.ok ⟨1, []⟩, [Survey.titled 9 "U"]) := by
  constructor
  · decide
  · rfl

end QueryForest
