import QueryForest.Proofs.Forest.Repetition

namespace QueryForest

/-!
# The reads that rows need

An assembly fails where a column occurs too rarely in a row. Which columns it looks at depends on
what came before: the fields of a record are read from its first row only, and nothing is read below
a relation without a partner. All of that can be told from the rows themselves.

* `Layout.Needs` — the columns that are needed from a row behind others, for each table;
* `Layout.Lacks` — whether a row has fewer occurrences of a column than its table has to have;
* `Layout.Makes` — whether a computation makes all reads of a set and no others: it is kept by
  sequences (`Makes.bind`), conditions (`Makes.guard`) and loops over rows (`Makes.inTurn`);
* `Layout.makes_probe`, `Layout.makes_probeForest` — the reads for one relation of a row, and those
  of a whole assembly;
* `assemble_error_iff` — the assembly fails exactly when a row lacks a column that is needed.
-/

/-- Two values that are equal are both NULL, or neither is. -/
theorem Scalar.isNull_eq_of_same {x y : Scalar} (h : x.same y = true) : x.isNull = y.isNull := by
  cases x
  case float v =>
    obtain ⟨w, rfl, hvw⟩ := eq_float_of_same h
    cases v <;> cases w <;> first | rfl | cases hvw
  case double v =>
    obtain ⟨w, rfl, hvw⟩ := eq_double_of_same h
    cases v <;> cases w <;> first | rfl | cases hvw
  all_goals
    have heq : _ = y := eq_of_beq h
    rw [heq]

namespace Layout

variable (layout : Layout)

/-! ### Needs -/

/-- Whether two rows have keys in the tables of some nodes, and equal ones: in rows of the same
records down to the last of the nodes. -/
def Alike (way : List Node) (row other : RawRow) : Prop :=
  ∀ n ∈ way, sameKey (layout.reading n n.model.primaryKey) row other = true

/-- The rows among `earlier` with the key that a row has in the table of a node. -/
def sharingKey (node : Node) (row : RawRow) (earlier : List RawRow) : List RawRow :=
  earlier.filter (sameKey (layout.reading node node.model.primaryKey) row)

/-- The columns that a row needs for the last table on a way, behind some earlier rows: its key,
where all tables before it have partners; and its fields, where it has one too, unless an earlier
row is about the same record. -/
def NeedsOn (way : List Node) (earlier : List RawRow) (row : RawRow) (target : Node)
    (column : String) : Prop :=
  (column = target.model.primaryKey ∧ ∀ n ∈ way.dropLast, layout.hasPartner n row = true) ∨
    (column ∈ target.model.fields ∧ (∀ n ∈ way, layout.hasPartner n row = true) ∧
      ∀ other ∈ earlier, ¬ layout.Alike way row other)

/-- The columns that a row needs behind some earlier rows. -/
inductive Needs (earlier : List RawRow) (row : RawRow) : Node → String → Prop
  /-- The key of the base table; and the key of a relation, if the row has partners in all relations
  above it. -/
  | key {path : List Node} {target : Node} (way : layout.root.Path path target)
      (partners : ∀ n ∈ path.dropLast, layout.hasPartner n row = true) :
      Needs earlier row target target.model.primaryKey
  /-- The declared fields of the base table, if the row starts a root; and those of a relation in
  which the row has a partner that is new under its parent. -/
  | field {path : List Node} {target : Node} {field : String} (way : layout.root.Path path target)
      (partners : ∀ n ∈ path, layout.hasPartner n row = true)
      (new : ∀ other ∈ earlier, ¬ layout.Alike (layout.root :: path) row other)
      (declared : field ∈ target.model.fields) : Needs earlier row target field

/-- Whether a row has a column several times, but not as often as there are tables up to that of a
node that declare it. -/
def Lacks (row : RawRow) (node : Node) (column : String) : Prop :=
  ∃ values, row.get? column = some (.perOccurrence values) ∧
    values.length ≤ layout.occurrence node.position column

/-! ### Reads -/

/-- The reading of a column for the table of a node from a row. -/
structure Read where
  row : RawRow
  node : Node
  column : String

/-- What comes of a reading. -/
def read (r : Read) : Except ResolutionError (Option Scalar) := layout.value r.row r.node r.column

/-- Whether a computation makes all readings of a set, and no others: it succeeds only if each of
them does, and if it fails then with the error of one of them. -/
structure Makes (x : Except ResolutionError Unit) (reads : Read → Prop) : Prop where
  ok : x = .ok () → ∀ r, reads r → ∃ found, layout.read r = .ok found
  error : ∀ e, x = .error e → ∃ r, reads r ∧ layout.read r = .error e

variable {layout}

/-- A reading fails exactly for want of the occurrence that belongs to the table. -/
theorem value_eq_error_iff {row : RawRow} {node : Node} {column : String} {e : ResolutionError} :
    layout.value row node column = .error e ↔
      ∃ values, row.get? column = some (.perOccurrence values) ∧
        values.length ≤ layout.occurrence node.position column ∧
        e = .missingOccurrence column node.model.table (layout.occurrence node.position column)
          values.length := by
  unfold value
  cases hget : row.get? column with
  | none => simp
  | some found =>
    cases found with
    | scalar v => simp
    | perOccurrence values =>
      simp only [Option.some.injEq, Column.perOccurrence.injEq, exists_eq_left']
      -- several values, of which the table has one or is one too many
      by_cases hlt : layout.occurrence node.position column < values.length
      · rw [List.getElem?_eq_getElem hlt]
        exact ⟨fun h => (by cases h), fun h => absurd h.1 (Nat.not_le.2 hlt)⟩
      · rw [List.getElem?_eq_none (Nat.not_lt.1 hlt)]
        constructor
        · intro h
          cases h
          exact ⟨Nat.not_lt.1 hlt, rfl⟩
        · rintro ⟨-, rfl⟩
          rfl

namespace Makes

variable {x y : Except ResolutionError Unit} {S T : Read → Prop}

/-- What is read may be described in another way. -/
theorem congr (h : layout.Makes x S) (heq : ∀ r, T r ↔ S r) : layout.Makes x T where
  ok hok r hr := h.ok hok r ((heq r).1 hr)
  error e he := by
    obtain ⟨r, hr, hread⟩ := h.error e he
    exact ⟨r, (heq r).2 hr, hread⟩

/-- No reading makes no readings. -/
theorem none : layout.Makes (.ok ()) fun _ => False where
  ok _ _ hr := hr.elim
  error e he := by cases he

/-- One reading, whatever it gives. -/
theorem one (r : Read) : layout.Makes ((layout.read r).map fun _ => ()) fun other => other = r where
  ok hok other hother := by
    obtain ⟨found, hfound, -⟩ := map_eq_ok.1 hok
    exact ⟨found, hother ▸ hfound⟩
  error e he := by
    refine ⟨r, rfl, ?_⟩
    cases hread : layout.read r with
    | error e' =>
      rw [hread] at he
      cases he
      rfl
    | ok found =>
      rw [hread] at he
      cases he

/-- The readings of one computation, and then those of another. -/
theorem bind (hx : layout.Makes x S) (hy : layout.Makes y T) :
    layout.Makes (x.bind fun _ => y) fun r => S r ∨ T r where
  ok hok r hr := by
    obtain ⟨⟨⟩, hxok, hyok⟩ := bind_eq_ok.1 hok
    exact hr.elim (hx.ok hxok r) (hy.ok hyok r)
  error e he := by
    cases hxe : x with
    | error e' =>
      rw [hxe] at he
      cases he
      obtain ⟨r, hr, hread⟩ := hx.error _ hxe
      exact ⟨r, Or.inl hr, hread⟩
    | ok _ =>
      rw [hxe] at he
      obtain ⟨r, hr, hread⟩ := hy.error e he
      exact ⟨r, Or.inr hr, hread⟩

/-- Readings that are made under a condition. -/
theorem guard {c : Prop} [Decidable c] (h : c → layout.Makes x S) :
    layout.Makes (if c then x else .ok ()) fun r => c ∧ S r := by
  by_cases hc : c
  · rw [if_pos hc]
    exact (h hc).congr fun r => and_iff_right hc
  · rw [if_neg hc]
    exact none.congr fun r => iff_of_false (fun hr => hc hr.1) id

/-- The readings for each row of a list, behind the rows before it. -/
theorem inTurn {step : RawRow → List RawRow → Except ResolutionError Unit}
    {reads : RawRow → List RawRow → Read → Prop}
    (h : ∀ row earlier, layout.Makes (step row earlier) (reads row earlier))
    (earlier rows : List RawRow) :
    layout.Makes (QueryForest.inTurn step earlier rows) fun r =>
      ∃ before row after, rows = before ++ row :: after ∧ reads row (earlier ++ before) r := by
  induction rows generalizing earlier with
  | nil => exact none.congr fun r => iff_of_false (by simp) id
  | cons row rest ih =>
    refine ((h row earlier).bind (ih (earlier ++ [row]))).congr fun r => ?_
    -- a reading is for the first row, or for one of the rest with the first row before it
    constructor
    · rintro ⟨before, row', after, hrows, hr⟩
      cases before with
      | nil =>
        cases hrows
        rw [List.append_nil] at hr
        exact Or.inl hr
      | cons first before =>
        cases hrows
        refine Or.inr ⟨before, row', after, rfl, ?_⟩
        rwa [List.append_assoc, List.singleton_append]
    · rintro (hr | ⟨before, row', after, rfl, hr⟩)
      · refine ⟨[], row, rest, rfl, ?_⟩
        rwa [List.append_nil]
      · refine ⟨row :: before, row', after, rfl, ?_⟩
        rwa [List.append_assoc, List.singleton_append] at hr

end Makes

/-! ### The reads of a row -/

/-- The fields of a table are read one after the other. -/
theorem makes_check (node : Node) (row : RawRow) :
    layout.Makes (layout.check node row) fun r =>
      ∃ field ∈ node.model.fields, r = ⟨row, node, field⟩ := by
  unfold check
  induction node.model.fields with
  | nil => exact Makes.none.congr fun r => by simp
  | cons field rest ih =>
    -- the values themselves do not matter, only whether they can be read
    have heq : (layout.values row node (field :: rest)).map (fun _ => ()) =
        ((layout.read ⟨row, node, field⟩).map fun _ => ()).bind fun _ =>
          (layout.values row node rest).map fun _ => () := by
      rw [values]
      show _ = ((layout.value row node field).map fun _ => ()).bind _
      cases layout.value row node field with
      | error e => rfl
      | ok found =>
        cases layout.values row node rest with
        | error e => rfl
        | ok others => cases found <;> rfl
    rw [heq]
    exact ((Makes.one _).bind ih).congr fun r => by simp

variable {node : Node} {row : RawRow} {earlier : List RawRow}

/-- A declared key is what is read for it. -/
theorem key?_of_declares (hdeclared : node.model.declares node.model.primaryKey = true) :
    layout.key? node = layout.reading node node.model.primaryKey := by
  ext other : 1
  unfold key?
  rw [if_pos hdeclared]

/-- Where the key of a table is declared, the rows that share a partner are those with its key. -/
theorem sharing_eq (hdeclared : node.model.declares node.model.primaryKey = true)
    (hpartner : layout.hasPartner node row = true) (earlier : List RawRow) :
    layout.sharing node row earlier = layout.sharingKey node row earlier := by
  unfold sharing sharingKey
  rw [key?_of_declares hdeclared, List.filter_filter]
  refine List.filter_congr fun other _ => ?_
  rw [Bool.and_eq_left_iff_imp]
  intro hsame
  -- a row with the key of a partner has that partner
  unfold sameKey at hsame
  unfold hasPartner at hpartner ⊢
  cases hown : layout.reading node node.model.primaryKey row with
  | none => rw [hown] at hpartner; cases hpartner
  | some key =>
    cases hother : layout.reading node node.model.primaryKey other with
    | none => rw [hown, hother] at hsame; cases hsame
    | some key' =>
      rw [hown, hother] at hsame
      rw [hown, Option.any_some, Scalar.isNull_eq_of_same hsame] at hpartner
      rw [Option.any_some]
      exact hpartner

/-- The rows alike on a longer way are those alike on the rest of it that are about the same record
of its first table. -/
theorem forall_not_alike_cons {way : List Node} :
    (∀ other ∈ earlier, ¬ layout.Alike (node :: way) row other) ↔
      ∀ other ∈ layout.sharingKey node row earlier, ¬ layout.Alike way row other := by
  unfold Alike sharingKey
  simp only [List.forall_mem_cons, List.mem_filter]
  constructor
  · intro hnew other hother hsame
    exact hnew other hother.1 ⟨hother.2, hsame⟩
  · intro hnew other hother hsame
    exact hnew other ⟨hother, hsame.1⟩ hsame.2

/-- What is needed on a longer way is what is needed on the rest of it, behind the rows that are
about the same record of the first table. -/
theorem needsOn_cons {way : List Node} (hway : way ≠ []) {target : Node} {column : String} :
    layout.NeedsOn (node :: way) earlier row target column ↔
      layout.hasPartner node row = true ∧
        layout.NeedsOn way (layout.sharingKey node row earlier) row target column := by
  unfold NeedsOn
  rw [forall_not_alike_cons, List.dropLast_cons_of_ne_nil hway, List.forall_mem_cons,
    List.forall_mem_cons]
  constructor
  · rintro (⟨hcolumn, hhere, hpartners⟩ | ⟨hcolumn, ⟨hhere, hpartners⟩, hnew⟩)
    · exact ⟨hhere, Or.inl ⟨hcolumn, hpartners⟩⟩
    · exact ⟨hhere, Or.inr ⟨hcolumn, hpartners, hnew⟩⟩
  · rintro ⟨hhere, ⟨hcolumn, hpartners⟩ | ⟨hcolumn, hpartners, hnew⟩⟩
    · exact Or.inl ⟨hcolumn, hhere, hpartners⟩
    · exact Or.inr ⟨hcolumn, ⟨hhere, hpartners⟩, hnew⟩

/-- What is needed for a table itself. -/
theorem needsOn_singleton {column : String} :
    layout.NeedsOn [node] earlier row node column ↔ column = node.model.primaryKey ∨
      layout.hasPartner node row = true ∧ column ∈ node.model.fields ∧
        (layout.sharingKey node row earlier).isEmpty = true := by
  unfold NeedsOn Alike sharingKey
  simp only [List.forall_mem_singleton, List.isEmpty_iff, List.filter_eq_nil_iff]
  constructor
  · rintro (⟨hcolumn, -⟩ | ⟨hcolumn, hpartner, hnew⟩)
    · exact Or.inl hcolumn
    · exact Or.inr ⟨hpartner, hcolumn, hnew⟩
  · rintro (hcolumn | ⟨hpartner, hcolumn, hnew⟩)
    · exact Or.inl ⟨hcolumn, by simp⟩
    · exact Or.inr ⟨hcolumn, hpartner, hnew⟩

/-- What is needed for a relation and below it: its key, and where the row has a partner its fields,
unless an earlier row had it, and what is needed for the relations of the partner. -/
theorem exists_path_iff {target : Node} {column : String} :
    (∃ path, node.Path path target ∧
      layout.NeedsOn (node :: path) earlier row target column) ↔
      (target = node ∧ column = node.model.primaryKey) ∨ layout.hasPartner node row = true ∧
        ((target = node ∧ column ∈ node.model.fields ∧
            (layout.sharingKey node row earlier).isEmpty = true) ∨
          ∃ next ∈ node.nested, ∃ path, next.Path path target ∧
            layout.NeedsOn (next :: path) (layout.sharingKey node row earlier) row target
              column) := by
  constructor
  · rintro ⟨path, hpath, hneeds⟩
    -- the way ends here, or goes into a relation, which takes a partner
    cases hpath with
    | here =>
      rcases needsOn_singleton.1 hneeds with hcolumn | ⟨hpartner, hcolumn, hnew⟩
      · exact Or.inl ⟨rfl, hcolumn⟩
      · exact Or.inr ⟨hpartner, Or.inl ⟨rfl, hcolumn, hnew⟩⟩
    | into hnext hrest =>
      obtain ⟨hpartner, hbelow⟩ := (needsOn_cons (List.cons_ne_nil _ _)).1 hneeds
      exact Or.inr ⟨hpartner, Or.inr ⟨_, hnext, _, hrest, hbelow⟩⟩
  · rintro (⟨rfl, hcolumn⟩ | ⟨hpartner, ⟨rfl, hcolumn, hnew⟩ | ⟨next, hnext, path, hpath, hbelow⟩⟩)
    · exact ⟨[], .here _, needsOn_singleton.2 (Or.inl hcolumn)⟩
    · exact ⟨[], .here _, needsOn_singleton.2 (Or.inr ⟨hpartner, hcolumn, hnew⟩)⟩
    · exact ⟨next :: path, .into hnext hpath,
        (needsOn_cons (List.cons_ne_nil _ _)).2 ⟨hpartner, hbelow⟩⟩

/-- The reads for a relation: its key, and where there is a partner its fields, unless an earlier
row had it, and what is below. -/
theorem probe_eq (node : Node) (row : RawRow) (earlier : List RawRow) :
    layout.probe row earlier node =
      ((layout.read ⟨row, node, node.model.primaryKey⟩).map fun _ => ()).bind fun _ =>
        if layout.hasPartner node row = true then
          (if (layout.sharing node row earlier).isEmpty = true then layout.check node row
            else .ok ()).bind fun _ =>
              layout.probeAll row (layout.sharing node row earlier) node.nested
        else .ok () := by
  show _ = ((layout.value row node node.model.primaryKey).map fun _ => ()).bind _
  cases hvalue : layout.value row node node.model.primaryKey with
  | error e => exact probe_error hvalue earlier
  | ok found =>
    by_cases hpartner : layout.hasPartner node row = true
    · rw [if_pos hpartner]
      have hsome := hpartner
      rw [hasPartner_of_value hvalue] at hsome
      obtain ⟨key, hkey, hnull⟩ := Option.any_eq_true _ _ |>.1 hsome
      rw [hkey] at hvalue
      rw [probe_partner hvalue (by simpa using hnull)]
      rfl
    · rw [if_neg hpartner]
      exact probe_absent hvalue (Bool.not_eq_true _ ▸ hpartner) earlier

mutual

/-- **The reads for a relation** of a row are those that are needed for it and for the relations
below it, behind the earlier rows of the same parent. -/
theorem makes_probe (node : Node) (row : RawRow) (earlier : List RawRow)
    (hdeclared : ∀ n ∈ node.preorder, n.model.declares n.model.primaryKey = true) :
    layout.Makes (layout.probe row earlier node) fun r =>
      r.row = row ∧ ∃ path, node.Path path r.node ∧
        layout.NeedsOn (node :: path) earlier row r.node r.column := by
  match node with
  | ⟨model, position, nested⟩ =>
    have hown := hdeclared _ (Node.mem_preorder_self _)
    rw [Node.preorder_eq] at hdeclared
    rw [probe_eq]
    -- the key, then the fields of a new record, then the relations below
    refine ((Makes.one _).bind (Makes.guard fun hpartner => (Makes.guard fun _ =>
      makes_check _ row).bind (makes_probeAll nested row _ fun n hn =>
        hdeclared n (List.mem_cons_of_mem _ hn)))).congr fun r => ?_
    obtain ⟨of, target, column⟩ := r
    rw [exists_path_iff]
    by_cases hpartner : layout.hasPartner ⟨model, position, nested⟩ row = true
    · rw [sharing_eq hown hpartner]
      constructor
      · rintro ⟨rfl, ⟨rfl, rfl⟩ | ⟨-, ⟨rfl, hcolumn, hnew⟩ | hbelow⟩⟩
        · exact Or.inl rfl
        · exact Or.inr ⟨hpartner, Or.inl ⟨hnew, column, hcolumn, rfl⟩⟩
        · exact Or.inr ⟨hpartner, Or.inr ⟨rfl, hbelow⟩⟩
      · rintro (hkey | ⟨-, ⟨hnew, field, hfield, hread⟩ | ⟨rfl, hbelow⟩⟩)
        · cases hkey
          exact ⟨rfl, Or.inl ⟨rfl, rfl⟩⟩
        · cases hread
          exact ⟨rfl, Or.inr ⟨hpartner, Or.inl ⟨rfl, hfield, hnew⟩⟩⟩
        · exact ⟨rfl, Or.inr ⟨hpartner, Or.inr hbelow⟩⟩
    · -- without a partner the key is all that is read
      simp [hpartner]

/-- The reads for several relations of a row are those that are needed for any of them. -/
theorem makes_probeAll (nodes : List Node) (row : RawRow) (earlier : List RawRow)
    (hdeclared : ∀ n ∈ Node.preorderAll nodes, n.model.declares n.model.primaryKey = true) :
    layout.Makes (layout.probeAll row earlier nodes) fun r =>
      r.row = row ∧ ∃ node ∈ nodes, ∃ path, node.Path path r.node ∧
        layout.NeedsOn (node :: path) earlier row r.node r.column := by
  match nodes with
  | [] =>
    rw [probeAll]
    exact Makes.none.congr fun r => by simp
  | node :: rest =>
    rw [Node.preorderAll] at hdeclared
    rw [probeAll]
    refine ((makes_probe node row earlier fun n hn =>
      hdeclared n (List.mem_append_left _ hn)).bind (makes_probeAll rest row earlier fun n hn =>
        hdeclared n (List.mem_append_right _ hn))).congr fun r => ?_
    rw [← and_or_left, List.exists_mem_cons_iff]

end

/-! ### The reads of an assembly -/

/-- What is needed from a row behind others, for the base table and for its relations. -/
theorem needs_iff {target : Node} {column : String} :
    layout.Needs earlier row target column ↔
      (target = layout.root ∧ (column = layout.root.model.primaryKey ∨
        column ∈ layout.root.model.fields ∧
          (layout.sharingKey layout.root row earlier).isEmpty = true)) ∨
      ∃ next ∈ layout.root.nested, ∃ path, next.Path path target ∧
        layout.NeedsOn (next :: path) (layout.sharingKey layout.root row earlier) row target
          column := by
  -- a row starts a root if no row before it has its key
  have hempty : (∀ other ∈ earlier, ¬ layout.Alike [layout.root] row other) ↔
      (layout.sharingKey layout.root row earlier).isEmpty = true := by
    simp [Alike, sharingKey]
  constructor
  · rintro (⟨way, hpartners⟩ | ⟨way, hpartners, hnew, hcolumn⟩)
    · cases way with
      | here => exact Or.inl ⟨rfl, Or.inl rfl⟩
      | into hnext hrest => exact Or.inr ⟨_, hnext, _, hrest, Or.inl ⟨rfl, hpartners⟩⟩
    · cases way with
      | here => exact Or.inl ⟨rfl, Or.inr ⟨hcolumn, hempty.1 hnew⟩⟩
      | into hnext hrest =>
        exact Or.inr ⟨_, hnext, _, hrest,
          Or.inr ⟨hcolumn, hpartners, forall_not_alike_cons.1 hnew⟩⟩
  · rintro (⟨rfl, rfl | ⟨hcolumn, hnew⟩⟩ | ⟨next, hnext, path, hpath, hneeds⟩)
    · exact .key (.here _) (by simp)
    · exact .field (.here _) (by simp) (hempty.2 hnew) hcolumn
    · rcases hneeds with ⟨rfl, hpartners⟩ | ⟨hcolumn, hpartners, hnew⟩
      · exact .key (.into hnext hpath) hpartners
      · exact .field (.into hnext hpath) hpartners (forall_not_alike_cons.2 hnew) hcolumn

/-- Where the base table declares its key, the rows of the same root are those with its key. -/
theorem sharingRoot_eq
    (hdeclared : layout.root.model.declares layout.root.model.primaryKey = true) (row : RawRow)
    (earlier : List RawRow) :
    layout.sharingRoot row earlier = layout.sharingKey layout.root row earlier := by
  unfold sharingRoot sharingKey
  rw [key?_of_declares hdeclared]

/-- For its root a row is read at the key, and the first row of a root at all fields. -/
theorem makes_probeRoot
    (hdeclared : layout.root.model.declares layout.root.model.primaryKey = true) (row : RawRow)
    (earlier : List RawRow) : layout.Makes (layout.probeRoot row earlier) fun r =>
      r.row = row ∧ r.node = layout.root ∧ (r.column = layout.root.model.primaryKey ∨
        r.column ∈ layout.root.model.fields ∧
          (layout.sharingKey layout.root row earlier).isEmpty = true) := by
  -- what is entered does not matter, only what is read
  have heq : layout.probeRoot row earlier =
      ((layout.read ⟨row, layout.root, layout.root.model.primaryKey⟩).map fun _ => ()).bind fun _ =>
        if (layout.sharingRoot row earlier).isEmpty = true then layout.check layout.root row
        else .ok () := by
    show _ = ((layout.value row layout.root layout.root.model.primaryKey).map fun _ => ()).bind _
    unfold probeRoot
    cases layout.value row layout.root layout.root.model.primaryKey <;> rfl
  rw [heq, sharingRoot_eq hdeclared]
  refine ((Makes.one _).bind (Makes.guard fun _ => makes_check _ row)).congr fun r => ?_
  obtain ⟨of, target, column⟩ := r
  constructor
  · rintro ⟨rfl, rfl, rfl | ⟨hcolumn, hnew⟩⟩
    · exact Or.inl rfl
    · exact Or.inr ⟨hnew, column, hcolumn, rfl⟩
  · rintro (hkey | ⟨hnew, field, hfield, hread⟩)
    · cases hkey
      exact ⟨rfl, rfl, Or.inl rfl⟩
    · cases hread
      exact ⟨rfl, rfl, Or.inr ⟨hfield, hnew⟩⟩

/-- For several relations each row is read at what it needs for each of them. -/
theorem makes_probeRelations (rows : List RawRow) (nodes : List Node)
    (hroot : layout.root.model.declares layout.root.model.primaryKey = true)
    (hdeclared : ∀ n ∈ Node.preorderAll nodes, n.model.declares n.model.primaryKey = true) :
    layout.Makes (layout.probeRelations rows nodes) fun r =>
      ∃ node ∈ nodes, ∃ before row after, rows = before ++ row :: after ∧ r.row = row ∧
        ∃ path, node.Path path r.node ∧ layout.NeedsOn (node :: path)
          (layout.sharingKey layout.root row before) row r.node r.column := by
  induction nodes with
  | nil => exact Makes.none.congr fun r => by simp
  | cons node rest ih =>
    rw [Node.preorderAll] at hdeclared
    have hown : ∀ row earlier, layout.Makes
        (layout.probe row (layout.sharingRoot row earlier) node) _ := fun row earlier =>
      makes_probe node row _ fun n hn => hdeclared n (List.mem_append_left _ hn)
    have hnode := Makes.inTurn hown [] rows
    rw [← probeRows_eq] at hnode
    refine (hnode.bind (ih fun n hn => hdeclared n (List.mem_append_right _ hn))).congr
      fun r => ?_
    simp only [List.exists_mem_cons_iff, sharingRoot_eq hroot, List.nil_append]

/-- **The reads of an assembly** are those that its rows need behind the rows before them. -/
theorem makes_probeForest (rows : List RawRow)
    (hdeclared : ∀ n ∈ layout.root.preorder, n.model.declares n.model.primaryKey = true) :
    layout.Makes (layout.probeForest rows) fun r =>
      ∃ before after, rows = before ++ r.row :: after ∧
        layout.Needs before r.row r.node r.column := by
  have hroot := hdeclared _ (Node.mem_preorder_self _)
  rw [Node.preorder_eq] at hdeclared
  have hroots := Makes.inTurn (makes_probeRoot hroot) [] rows
  rw [← probeRoots_eq] at hroots
  refine (hroots.bind (makes_probeRelations rows layout.root.nested hroot fun n hn =>
    hdeclared n (List.mem_cons_of_mem _ hn))).congr fun r => ?_
  -- the base table is read in the pass over the roots, all else in the pass for its relation
  simp only [needs_iff, List.nil_append]
  constructor
  · rintro ⟨before, after, hrows, ⟨hnode, hcolumn⟩ | ⟨next, hnext, path, hpath, hneeds⟩⟩
    · exact Or.inl ⟨before, r.row, after, hrows, rfl, hnode, hcolumn⟩
    · exact Or.inr ⟨next, hnext, before, r.row, after, hrows, rfl, path, hpath, hneeds⟩
  · rintro (⟨before, row, after, hrows, rfl, hnode, hcolumn⟩ |
      ⟨next, hnext, before, row, after, hrows, rfl, path, hpath, hneeds⟩)
    · exact ⟨before, after, hrows, Or.inl ⟨hnode, hcolumn⟩⟩
    · exact ⟨before, after, hrows, Or.inr ⟨next, hnext, path, hpath, hneeds⟩⟩

end Layout

/-- **A missing occurrence is reported exactly when it is needed.** The assembly of rows fails
exactly when a row lacks a column that is needed from it behind the rows before it; and the error
then names such a column, its table, the occurrence that was looked for and how many there are. Keys
may be NULL, and those of the base table too: its relations are read from such a row as well. -/
theorem assemble_error_iff {base : Model} {joins : List Join} {layout : Layout}
    (h : Layout.ofJoins base joins = .ok layout)
    (hdeclared : ∀ m ∈ layout.tables, m.declares m.primaryKey = true) (rows : List RawRow) :
    ((∃ e, assemble base joins rows = .error e) ↔
      ∃ before row after, rows = before ++ row :: after ∧
        ∃ node column, layout.Needs before row node column ∧ layout.Lacks row node column) ∧
    ∀ e, assemble base joins rows = .error e →
      ∃ before row after, rows = before ++ row :: after ∧
        ∃ node column values, layout.Needs before row node column ∧
          row.get? column = some (.perOccurrence values) ∧
          values.length ≤ layout.occurrence node.position column ∧
          e = .missingOccurrence column node.model.table (layout.occurrence node.position column)
            values.length := by
  have hnodes : ∀ n ∈ layout.root.preorder, n.model.declares n.model.primaryKey = true := by
    intro n hn
    refine hdeclared _ ?_
    rw [(Layout.wellNumbered_ofJoins h).tables_eq]
    exact List.mem_map_of_mem hn
  have hmakes := Layout.makes_probeForest rows hnodes
  have hreported : ∀ e, assemble base joins rows = .error e →
      ∃ before row after, rows = before ++ row :: after ∧
        ∃ node column values, layout.Needs before row node column ∧
          row.get? column = some (.perOccurrence values) ∧
          values.length ≤ layout.occurrence node.position column ∧
          e = .missingOccurrence column node.model.table (layout.occurrence node.position column)
            values.length := by
    intro e he
    rw [assemble_eq h] at he
    cases hprobe : layout.probeForest rows with
    | ok _ =>
      rw [hprobe] at he
      cases he
    | error _ =>
      rw [hprobe] at he
      cases he
      obtain ⟨r, ⟨before, after, hrows, hneeds⟩, hread⟩ := hmakes.error e hprobe
      obtain ⟨values, hget, hlength, he⟩ := Layout.value_eq_error_iff.1 hread
      exact ⟨before, r.row, after, hrows, r.node, r.column, values, hneeds, hget, hlength, he⟩
  refine ⟨⟨?_, ?_⟩, hreported⟩
  · rintro ⟨e, he⟩
    obtain ⟨before, row, after, hrows, node, column, values, hneeds, hget, hlength, -⟩ :=
      hreported e he
    exact ⟨before, row, after, hrows, node, column, hneeds, values, hget, hlength⟩
  · rintro ⟨before, row, after, hrows, node, column, hneeds, values, hget, hlength⟩
    rw [assemble_eq h]
    cases hprobe : layout.probeForest rows with
    | error e => exact ⟨e, rfl⟩
    | ok _ =>
      -- all reads were made, so the one that the row lacks succeeded
      obtain ⟨found, hfound⟩ := hmakes.ok hprobe ⟨row, node, column⟩ ⟨before, after, hrows, hneeds⟩
      have herror := Layout.value_eq_error_iff.2 ⟨values, hget, hlength, rfl⟩
      cases hfound.symm.trans herror

namespace Survey

/-- Two rows with two keys each: the first is about an exercise without questions, the second about
a question of it, and has no key for a response. -/
def short : List RawRow :=
  [Row.fetch .named ⟨[("id", .int32 (some 1)), ("id", .int32 none)]⟩,
    Row.fetch .named ⟨[("id", .int32 (some 1)), ("id", .int32 (some 5))]⟩]

end Survey

/-- A row that lacks the third of three keys. -/
theorem assemble_error_iff_survey :
    Layout.ofJoins Survey.exercises Survey.joins = .ok Survey.layout ∧
      (∀ m ∈ Survey.layout.tables, m.declares m.primaryKey = true) ∧
      assemble Survey.exercises Survey.joins Survey.short =
        .error (.missingOccurrence "id" "responses" 2 2) ∧
      ∃ before row after, Survey.short = before ++ row :: after ∧ ∃ node column,
        Survey.layout.Needs before row node column ∧ Survey.layout.Lacks row node column := by
  have hlayout : Layout.ofJoins Survey.exercises Survey.joins = .ok Survey.layout := rfl
  have hdeclared : ∀ m ∈ Survey.layout.tables, m.declares m.primaryKey = true := by decide
  have hrun : assemble Survey.exercises Survey.joins Survey.short =
      .error (.missingOccurrence "id" "responses" 2 2) := by
    cbv
  exact ⟨hlayout, hdeclared, hrun,
    (assemble_error_iff hlayout hdeclared Survey.short).1.1 ⟨_, hrun⟩⟩

end QueryForest
