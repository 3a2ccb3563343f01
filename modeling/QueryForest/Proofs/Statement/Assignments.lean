import QueryForest.Proofs.Statement.Affected
import QueryForest.Proofs.Statement.Insertion

namespace QueryForest

/-!
# Assignments in the text of a statement

An insertion writes the names of its fields in one list and a mark for each value in another, and an
update writes both together. Neither list may be empty, repeat a name or be longer than the other
one.

* `Sql.readInsertion?` and `Sql.readTarget?` — the table and the columns that a text is about, and
  the number of marks behind the columns of an insertion;
* `Update.run` — an update after a number of steps, each of which sets a field or adds conditions;
* `Fields.isAfter_steps` — whatever is set, an insertion and an update name each field once.
-/

open Sql (Lexeme Lexes)

/-! ### Lists in brackets -/

namespace Sql

section Items

variable {α β : Type}

/-- Reads items with commas between them, up to a closing bracket. -/
def readItems? (item? : Lexeme → Option β) : List Lexeme → Option (List β × List Lexeme)
  | l :: .sign ')' :: rest => (item? l).map fun item => ([item], rest)
  | l :: .sign ',' :: rest =>
    (item? l).bind fun item =>
      (readItems? item? rest).map fun (items, more) => (item :: items, more)
  | _ => none

/-- The lexemes of a list up to its closing bracket. -/
def itemLexemes (lexeme : α → Lexeme) (items : List α) : List Lexeme :=
  (items.map lexeme).intersperse (.sign ',') ++ [.sign ')']

/-- A list of items that end in front of commas and brackets. -/
theorem lexes_items {text : α → List Char} {lexeme : α → Lexeme}
    (h : ∀ a c, c = ',' ∨ c = ')' → Lexes .between (text a ++ [c]) [lexeme a, .sign c] .between)
    {items : List α} (hne : items ≠ []) :
    Lexes .between (List.intercalate [',', ' '] (items.map text) ++ [')'])
      (itemLexemes lexeme items) .between := by
  induction items with
  | nil => exact absurd rfl hne
  | cons first rest ih =>
    cases rest with
    | nil =>
      rw [List.map_singleton, List.intercalate_singleton]
      exact h first ')' (.inr rfl)
    | cons next rest =>
      -- the blank behind a comma is no lexeme
      have hspace : Lexes .between [' '] [] .between := fun _ => rfl
      have hrest := ih (List.cons_ne_nil _ _)
      have hall := (h first ',' (.inl rfl)).append (hspace.append hrest)
      rw [List.append_assoc] at hall
      rw [List.map_cons, List.map_cons, List.intercalate_cons_cons, List.append_assoc,
        List.append_assoc]
      exact hall

/-- Items with commas between them are read up to the closing bracket. -/
theorem readItems?_itemLexemes {item? : Lexeme → Option β} {lexeme : α → Lexeme} {read : α → β}
    (h : ∀ a, item? (lexeme a) = some (read a)) {items : List α} (hne : items ≠ [])
    (behind : List Lexeme) :
    readItems? item? (itemLexemes lexeme items ++ behind) = some (items.map read, behind) := by
  induction items with
  | nil => exact absurd rfl hne
  | cons first rest ih =>
    cases rest with
    | nil =>
      show readItems? item? (lexeme first :: .sign ')' :: behind) = _
      rw [readItems?, h]
      rfl
    | cons next rest =>
      have hrest := ih (List.cons_ne_nil _ _)
      show readItems? item? (lexeme first :: .sign ',' ::
        (itemLexemes lexeme (next :: rest) ++ behind)) = _
      rw [readItems?, h, Option.bind_some, hrest]
      rfl

end Items

/-! ### Reading the columns of a statement -/

/-- What is read of an insertion: its table, its columns and the number of its marks. -/
structure Insertion where
  table : List Char
  columns : List (List Char)
  marks : Nat
  deriving DecidableEq

/-- The name of a quoted column. -/
def columnName? : Lexeme → Option (List Char)
  | .quoted '"' name => some name
  | _ => none

/-- The mark of a value. -/
def mark? : Lexeme → Option Unit
  | .sign '?' => some ()
  | _ => none

/-- Reads the values of an insertion: marks in brackets, with nothing behind them. -/
def readMarks? : List Lexeme → Option Nat
  | .word ['V', 'A', 'L', 'U', 'E', 'S'] :: .sign '(' :: rest =>
    match readItems? mark? rest with
    | some (marks, []) => some marks.length
    | _ => none
  | _ => none

/-- Reads an insertion: a table, columns in brackets and marks in brackets. -/
def readInsertion? (sql : String) : Option Insertion :=
  match lexemes sql.toList with
  | .word ['I', 'N', 'S', 'E', 'R', 'T'] :: .word ['I', 'N', 'T', 'O'] :: .quoted '"' table ::
      .sign '(' :: rest =>
    (readItems? columnName? rest).bind fun (columns, more) =>
      (readMarks? more).map fun marks => ⟨table, columns, marks⟩
  | _ => none

/-- Reads the table and the columns of an update, and leaves its clause. -/
def readTarget? (sql : String) : Option (List Char × List (List Char)) :=
  match lexemes sql.toList with
  | .word ['U', 'P', 'D', 'A', 'T', 'E'] :: .quoted '"' table :: .word ['S', 'E', 'T'] :: rest =>
    (readAssignments? rest).map fun (columns, _) => (table, columns)
  | _ => none

/-! ### The text of an insertion -/

/-- The text of joined fragments is that of the fragments with the separator between them. -/
theorem Fragment.text_joinWith (separator : String) (items : List Fragment) :
    (joinWith separator items).text =
      List.intercalate separator.toList (items.map Fragment.text) := by
  induction items with
  | nil => rfl
  | cons a rest ih =>
    cases rest with
    | nil => rw [List.map_singleton, List.intercalate_singleton, joinWith]
    | cons next rest =>
      show (a ++ ofString separator ++ joinWith separator (next :: rest)).text =
        List.intercalate separator.toList (a.text :: next.text :: rest.map text)
      rw [text_append, text_append, ih, List.intercalate_cons_cons]
      rfl

end Sql

namespace Insert

/-- The text of an insertion: a table, the list of its columns and the list of its marks. -/
theorem text_written (s : Insert) :
    s.written.text =
      "INSERT INTO ".toList ++ (Sql.quoteName s.model.table.toList ++ [' ']) ++ ['('] ++
        (List.intercalate [',', ' '] (s.fields.names.map fun name => Sql.quoteName name.toList) ++
          [')']) ++ " VALUES (".toList ++
            (List.intercalate [',', ' '] (s.fields.values.map fun _ => ['?']) ++ [')']) := by
  have hopen : " (".toList = [' '] ++ ['('] := rfl
  have hclose : ") VALUES (".toList = [')'] ++ " VALUES (".toList := rfl
  rw [written_eq]
  rw [Sql.Fragment.text_append, Sql.Fragment.text_append, Sql.Fragment.text_joinWith,
    List.map_map]
  show "INSERT INTO ".toList ++ Sql.quoteName s.model.table.toList ++ " (".toList ++
    List.intercalate [',', ' '] (s.fields.names.map fun name => Sql.quoteName name.toList) ++
      ") VALUES (".toList ++ List.intercalate [',', ' '] (s.fields.values.map fun _ => ['?']) ++
        [')'] = _
  rw [hopen, hclose]
  simp only [List.append_assoc]

/-- The lexeme of a column. -/
def columnLexeme (name : String) : Lexeme := .quoted '"' name.toList

/-- The lexeme of a value, whichever it is. -/
def markLexeme (_ : BindValue) : Lexeme := .sign '?'

/-- A column name is one lexeme, and what separates it from the next one is a sign. -/
theorem lexes_column (name : String) (c : Char) (hc : c = ',' ∨ c = ')') :
    Lexes .between (Sql.quoteName name.toList ++ [c]) [columnLexeme name, .sign c] .between := by
  have hname := Sql.lexes_quoteName name.toList
  rcases hc with rfl | rfl
  · exact hname.append (Sql.lexes_char ',' (.closed '"' name.toList))
  · exact hname.append (Sql.lexes_char ')' (.closed '"' name.toList))

/-- A mark is one lexeme, and what separates it from the next one is a sign. -/
theorem lexes_mark (value : BindValue) (c : Char) (hc : c = ',' ∨ c = ')') :
    Lexes .between (['?'] ++ [c]) [markLexeme value, .sign c] .between := by
  rcases hc with rfl | rfl
  · exact fun _ => rfl
  · exact fun _ => rfl

theorem columnName?_lexeme (name : String) :
    Sql.columnName? (columnLexeme name) = some name.toList := rfl

theorem mark?_lexeme (value : BindValue) : Sql.mark? (markLexeme value) = some () := rfl

/-- The text is cut into words, the table and the two lists. -/
theorem lexemes_written {s : Insert} (h : s.fields.isEmpty = false) :
    Sql.lexemes s.written.text =
      .word ['I', 'N', 'S', 'E', 'R', 'T'] :: .word ['I', 'N', 'T', 'O'] ::
        .quoted '"' s.model.table.toList :: .sign '(' ::
          (Sql.itemLexemes columnLexeme s.fields.names ++
            .word ['V', 'A', 'L', 'U', 'E', 'S'] :: .sign '(' ::
              Sql.itemLexemes markLexeme s.fields.values) := by
  have hnames := Fields.names_ne_nil h
  have hvalues := Fields.values_ne_nil h
  have hword : Lexes .between "INSERT INTO ".toList
      [.word ['I', 'N', 'S', 'E', 'R', 'T'], .word ['I', 'N', 'T', 'O']] .between := fun _ => rfl
  have hopen : Lexes .between ['('] [.sign '('] .between := fun _ => rfl
  have hbetween : Lexes .between " VALUES (".toList
      [.word ['V', 'A', 'L', 'U', 'E', 'S'], .sign '('] .between := fun _ => rfl
  have hcolumns := Sql.lexes_items lexes_column hnames
  have hmarks := Sql.lexes_items lexes_mark hvalues
  -- every part ends between lexemes, which is where the next one starts
  have hall := ((((hword.append (lexes_name s.model.table.toList)).append hopen).append
    hcolumns).append hbetween).append hmarks
  rw [← text_written, List.append_assoc, List.append_assoc] at hall
  exact hall.lex_eq

/-- **The columns of an insertion** are read, and a mark for each of them. -/
theorem readInsertion?_written {s : Insert} (h : s.fields.isEmpty = false) :
    Sql.readInsertion? (String.ofList s.written.text) =
      some ⟨s.model.table.toList, s.fields.names.map String.toList, s.fields.size⟩ := by
  have hnames := Fields.names_ne_nil h
  have hvalues := Fields.values_ne_nil h
  have hmarks := Sql.readItems?_itemLexemes mark?_lexeme hvalues []
  rw [List.append_nil] at hmarks
  unfold Sql.readInsertion?
  rw [String.toList_ofList, lexemes_written h]
  show (Sql.readItems? Sql.columnName? (Sql.itemLexemes columnLexeme s.fields.names ++ _)).bind _ =
    _
  rw [Sql.readItems?_itemLexemes columnName?_lexeme hnames, Option.bind_some]
  show (match Sql.readItems? Sql.mark? (Sql.itemLexemes markLexeme s.fields.values) with
    | some (marks, []) => some marks.length
    | _ => none).map _ = _
  rw [hmarks]
  show some (Sql.Insertion.mk _ _ (s.fields.values.map fun _ => ()).length) = _
  rw [List.length_map, Fields.values, List.length_map]
  rfl

end Insert

/-! ### The text of an update -/

namespace Update

/-- **The columns of an update** are read, whatever its clause is. -/
theorem readTarget?_assigned {s : Update} (h : s.fields.isEmpty = false)
    {condition : Sql.Fragment} (hclause : s.predicate.clause = .ok condition) :
    Sql.readTarget? (String.ofList (s.assigned ++ condition).text) =
      some (s.model.table.toList, s.fields.names.map String.toList) := by
  have hlexemes : Sql.lexemes (s.assigned.text ++ condition.text) = _ :=
    lexes_assigned h condition.text
  have hcolumns : s.fields.toList.map (·.1.toList) ≠ [] :=
    mt List.map_eq_nil_iff.1 (Fields.toList_ne_nil h)
  unfold Sql.readTarget?
  rw [String.toList_ofList, Sql.Fragment.text_append, hlexemes]
  show (Sql.readAssignments? (assignmentLexemes _ ++ Sql.lexemes condition.text)).map _ = _
  rw [readAssignments?_lexemes hcolumns (Predicate.head?_clause_ne_comma hclause)]
  show some (_, s.fields.toList.map (·.1.toList)) = _
  rw [Fields.names, List.map_map]
  rfl

/-! ### Steps of an update -/

/-- A step of an update sets a field or adds a segment to its predicate. -/
inductive Step
  | set (field : String) (value : BindValue)
  | push (connective : Connective) (conditions : List Condition)

/-- An update after one more step. -/
def step (s : Update) : Step → Update
  | .set field value => s.set field value
  | .push connective conditions => s.push connective conditions

/-- An update after a number of steps. -/
def run (s : Update) (steps : List Step) : Update := steps.foldl step s

/-- The assignment of a step. -/
def Step.write? : Step → Option (String × BindValue)
  | set field value => some (field, value)
  | push _ _ => none

/-- Steps do not change the model of an update. -/
theorem model_run (s : Update) (steps : List Step) : (s.run steps).model = s.model := by
  induction steps generalizing s with
  | nil => rfl
  | cons first rest ih =>
    refine (ih (s.step first)).trans ?_
    cases first <;> rfl

/-- Only the assignments among the steps change the fields. -/
theorem fields_run (s : Update) (steps : List Step) :
    (s.run steps).fields = s.fields.setAll (steps.filterMap Step.write?) := by
  induction steps generalizing s with
  | nil => rfl
  | cons first rest ih =>
    refine (ih (s.step first)).trans ?_
    cases first <;> rfl

/-- An update starts with the fields that it is given, and only if there are any. -/
theorem eq_of_ofFields {model : Model} {fields : Fields} {s : Update}
    (h : ofFields model fields = .ok s) :
    fields.isEmpty = false ∧ s = ⟨model, fields, .empty⟩ := by
  unfold ofFields at h
  cases hempty : fields.isEmpty with
  | true =>
    rw [hempty, if_pos rfl] at h
    cases h
  | false =>
    rw [hempty, if_neg Bool.false_ne_true] at h
    cases h
    exact ⟨rfl, rfl⟩

end Update

/-! ### Each field once -/

/-- An insertion into a table that names the fields of a list of assignments once: there is at least
one of them, its statement is accepted, and the text has a column and a mark for each. -/
structure Insert.NamesOnce (s : Insert) (table : String) (writes : List (String × BindValue)) :
    Prop where
  fields : s.fields.IsAfter writes
  size_pos : 0 < s.fields.size
  accepted : ∃ written : Sql.Fragment,
    Sql.insertion? table s.fields.names s.fields.values = .ok written ∧
      s.build = written.toQuery ∧
        Sql.readInsertion? (String.ofList written.text) =
          some ⟨table.toList, s.fields.names.map String.toList, s.fields.size⟩

/-- An update of a table that names the fields of a list of assignments once: there is at least one
of them, and the text assigns to a column for each, whatever its clause is. -/
structure Update.NamesOnce (s : Update) (table : String) (writes : List (String × BindValue)) :
    Prop where
  fields : s.fields.IsAfter writes
  size_pos : 0 < s.fields.size
  assigns : ∀ condition, s.predicate.clause = .ok condition →
    ∃ written : Sql.Fragment, s.build = written.toQuery ∧
      Sql.readTarget? (String.ofList written.text) =
        some (table.toList, s.fields.names.map String.toList)

section NamesOnce

variable {writes : List (String × BindValue)}

/-- An insertion whose fields were written in turn names each column once, with its last value. -/
theorem Insert.namesOnce {s : Insert} (hfields : s.fields = .ofList writes) (hne : writes ≠ []) :
    s.NamesOnce s.model.table writes := by
  have hempty : s.fields.isEmpty = false := by
    rw [hfields, Fields.isEmpty_ofList]
    exact List.isEmpty_eq_false_iff.2 hne
  have hpos : 0 < s.fields.size := Fields.size_pos_iff.2 hempty
  exact ⟨hfields ▸ Fields.isAfter_ofList writes, hpos, s.written, s.insertion?_fields, s.build_eq,
    readInsertion?_written hempty⟩

/-- An update whose fields were written in turn names each column once, with its last value. -/
theorem Update.namesOnce {s : Update} (hfields : s.fields = .ofList writes) (hne : writes ≠ []) :
    s.NamesOnce s.model.table writes := by
  have hempty : s.fields.isEmpty = false := by
    rw [hfields, Fields.isEmpty_ofList]
    exact List.isEmpty_eq_false_iff.2 hne
  have hpos : 0 < s.fields.size := Fields.size_pos_iff.2 hempty
  refine ⟨hfields ▸ Fields.isAfter_ofList writes, hpos, fun condition hclause => ?_⟩
  refine ⟨s.assigned ++ condition, ?_, readTarget?_assigned hempty hclause⟩
  rw [build_eq, hclause]
  rfl

end NamesOnce

/-- **Field maps stay maps.** Fields that were collected and set again have different names in the
order in which they were set first, each with its last value, and so have an insertion and an update
that were started with them, after any further steps. An insertion has as many columns as values,
and each column stands once in its text, as in that of an update. -/
theorem Fields.isAfter_steps (model : Model) (entries sets : List (String × BindValue)) :
    let fields := (Fields.ofList entries).setAll sets
    fields.IsAfter (entries ++ sets) ∧
      (∀ start, Insert.ofFields model fields = .ok start → ∀ later,
        (start.setAll later).NamesOnce model.table (entries ++ sets ++ later)) ∧
      ∀ start, Update.ofFields model fields = .ok start → ∀ steps,
        (start.run steps).NamesOnce model.table
          (entries ++ sets ++ steps.filterMap Update.Step.write?) := by
  intro fields
  have hfields : fields = ofList (entries ++ sets) := (ofList_append entries sets).symm
  -- a start is accepted only if something was set, and that stays
  have hne : fields.isEmpty = false → ∀ later, entries ++ sets ++ later ≠ [] := by
    intro hempty later
    rw [hfields, isEmpty_ofList, List.isEmpty_eq_false_iff] at hempty
    exact List.append_ne_nil_of_left_ne_nil hempty later
  refine ⟨hfields ▸ isAfter_ofList _, fun start hstart later => ?_, fun start hstart steps => ?_⟩
  · obtain ⟨hempty, rfl⟩ := Insert.eq_of_ofFields hstart
    have hlater : ((Insert.mk model fields).setAll later).fields =
        ofList (entries ++ sets ++ later) := by
      rw [Insert.setAll_mk, hfields, ofList_append (entries ++ sets)]
    have hnames := Insert.namesOnce hlater (hne hempty later)
    rw [Insert.setAll_mk] at hnames ⊢
    exact hnames
  · obtain ⟨hempty, rfl⟩ := Update.eq_of_ofFields hstart
    have hlater : ((Update.mk model fields .empty).run steps).fields =
        ofList (entries ++ sets ++ steps.filterMap Update.Step.write?) := by
      rw [Update.fields_run, ofList_append (entries ++ sets), ← hfields]
    have hnames := Update.namesOnce hlater (hne hempty _)
    rw [Update.model_run] at hnames
    exact hnames

namespace Survey

/-- An update of exercises in the middle of which there is a condition. -/
def revision : List Update.Step :=
  [.set "title" (.string (some "U")), .push .or [.equal "id" (.bigInt (some 9))],
    .set "state" (.string none), .set "title" (.string (some "V"))]

/-- The update as it is sent. -/
def sentRevision : Query :=
  ⟨"UPDATE \"exercises\" SET \"title\" = ?, \"state\" = ? WHERE \"id\" = ?",
    [.text (some "V"), .text none, .int64 (some 9)]⟩

end Survey

/-- A title and a key that are set again, in an insertion and in an update. -/
theorem Fields.isAfter_steps_revision :
    (Survey.addition.setAll Survey.twoKeys).NamesOnce "exercises"
        (("title", .string (some "T")) :: Survey.twoKeys) ∧
      Sql.readInsertion? Survey.sentKeyed.sql =
        some ⟨"exercises".toList, ["title".toList, "id".toList], 2⟩ ∧
      ∃ start : Update, (start.run Survey.revision).build = .ok Survey.sentRevision ∧
        (start.run Survey.revision).NamesOnce "exercises"
          (("title", .string (some "T")) :: Survey.revision.filterMap Update.Step.write?) := by
  let entries : List (String × BindValue) := [("title", .string (some "T"))]
  let start : Update := ⟨Survey.exercises, .ofList entries, .empty⟩
  have hinsert : Insert.ofFields Survey.exercises ((ofList entries).setAll []) =
      .ok Survey.addition := rfl
  have hupdate : Update.ofFields Survey.exercises ((ofList entries).setAll []) = .ok start := rfl
  have hsteps := isAfter_steps Survey.exercises entries []
  refine ⟨hsteps.2.1 _ hinsert Survey.twoKeys, by decide +kernel, start, by decide +kernel, ?_⟩
  exact hsteps.2.2 _ hupdate Survey.revision

end QueryForest
