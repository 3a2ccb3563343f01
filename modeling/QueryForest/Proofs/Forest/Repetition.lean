import QueryForest.Proofs.Data.Repeats
import QueryForest.Proofs.Forest.Assembly

namespace QueryForest

/-!
# Multiplied rows

A join multiplies the rows of a table by those of every other table, so that an assembly meets most
of what it reads many times. A row that is a copy of one before it finds its records at every depth,
and reads nothing that was not read before.

* `Layout.Tells` and `Layout.TellsRoot` — a row has a key that is equal to itself wherever it can
  have a record;
* `Layout.grouped_repeats` — the record of some rows is that of the rows with copies;
* `Layout.probe_again` — a row that passed the reads for a relation passes them behind itself;
* `assemble_repeats` — copies of rows change neither the forest nor the error.
-/

/-- **Groups with copies** are groups of the same rows: whatever does not change with copies in a
group is the same for the groups of all rows. -/
theorem map_groupsBy_repeats {α β : Type} {key : α → Option Scalar} {rows rows' : List α}
    (h : Repeats rows rows') (hself : ∀ row ∈ rows, sameKey key row row = true)
    {f : List α → β} (hf : ∀ group group', group ⊆ rows → Repeats group group' →
      f group' = f group) :
    (groupsBy key rows').map f = (groupsBy key rows).map f := by
  unfold groupsBy
  rw [h.eraseDupsBy_eq hself, List.map_map, List.map_map]
  refine List.map_congr_left fun first hfirst => ?_
  have hsame : sameKey key first first = true := hself first (mem_of_mem_eraseDupsBy hfirst)
  simp only [Function.comp_apply, companions, if_pos hsame]
  exact hf _ _ List.filter_sublist.subset (h.filter _)

namespace Layout

variable (layout : Layout)

/-- Whether the records that a row has in the table of a node can be found by their key. -/
def Tells (node : Node) (row : RawRow) : Prop :=
  layout.hasPartner node row = true → sameKey (layout.key? node) row row = true

/-- Whether the root of a row can be found by its key. -/
def TellsRoot (row : RawRow) : Prop :=
  ∀ found, layout.value row layout.root layout.root.model.primaryKey = .ok found →
    sameKey (layout.key? layout.root) row row = true

variable {layout} {node : Node} {row : RawRow} {rows rows' : List RawRow}

/-- A declared key that is not a NaN tells its record. -/
theorem sameKey_self {key : Scalar} (hdeclared : node.model.declares node.model.primaryKey = true)
    (hkey : layout.reading node node.model.primaryKey row = some key) (hnan : key.isNaN = false) :
    sameKey (layout.key? node) row row = true := by
  unfold sameKey key?
  rw [if_pos hdeclared, hkey]
  simp only [Scalar.same_self, hnan, Bool.not_false]

/-- From a row with a column, a value is read or the read fails. -/
theorem value_ne_none {column : String} (h : (row.get? column).isSome = true) :
    layout.value row node column ≠ .ok none := by
  unfold value
  split
  · next hget =>
    rw [hget] at h
    cases h
  · nofun
  · dsimp only
    split <;> nofun

/-! ### The records of rows with copies -/

mutual

/-- **The record of rows with copies** is that of the rows. -/
theorem grouped_repeats {group group' : List RawRow} (node : Node)
    (htells : ∀ n ∈ Node.preorderAll node.nested, ∀ row ∈ group, layout.Tells n row)
    (h : Repeats group group') : layout.grouped node group' = layout.grouped node group := by
  match node with
  | ⟨model, position, nested⟩ =>
    rw [grouped, grouped, h.head?_eq, groupedSlots_repeats nested htells h]

/-- Copies of rows leave all slots as they are. -/
theorem groupedSlots_repeats {group group' : List RawRow} (nodes : List Node)
    (htells : ∀ n ∈ Node.preorderAll nodes, ∀ row ∈ group, layout.Tells n row)
    (h : Repeats group group') :
    layout.groupedSlots nodes group' = layout.groupedSlots nodes group := by
  match nodes with
  | [] => rw [groupedSlots, groupedSlots]
  | node :: rest =>
    rw [Node.preorderAll, Node.preorder_eq] at htells
    have hrest := groupedSlots_repeats rest
      (fun n hn => htells n (List.mem_append_right _ hn)) h
    have hchildren : layout.children node group' = layout.children node group := by
      refine map_groupsBy_repeats (h.filter (layout.hasPartner node)) (fun row hrow => ?_)
        fun own own' hown hrepeats => grouped_repeats node (fun n hn row hrow => ?_) hrepeats
      · obtain ⟨hrow, hpartner⟩ := List.mem_filter.1 hrow
        exact htells node (List.mem_append_left _ List.mem_cons_self) row hrow hpartner
      · have hrow' := (List.mem_filter.1 (hown hrow)).1
        exact htells n (List.mem_append_left _ (List.mem_cons_of_mem _ hn)) row hrow'
    rw [groupedSlots_cons, groupedSlots_cons, hchildren, hrest]

end

/-- **The forest of rows with copies** is that of the rows. -/
theorem forest_repeats (hroot : ∀ row ∈ rows, sameKey (layout.key? layout.root) row row = true)
    (htells : ∀ n ∈ Node.preorderAll layout.root.nested, ∀ row ∈ rows, layout.Tells n row)
    (h : Repeats rows rows') : layout.forest rows' = layout.forest rows :=
  map_groupsBy_repeats h hroot fun _ _ hgroup hrepeats =>
    grouped_repeats layout.root (fun n hn row hrow => htells n hn row (hgroup hrow)) hrepeats

/-! ### What a row reads depends on which rows came before -/

mutual

/-- The reads of a row depend only on which rows came before. -/
theorem probe_congr {earlier earlier' : List RawRow} (h : ∀ r, r ∈ earlier ↔ r ∈ earlier')
    (node : Node) : layout.probe row earlier node = layout.probe row earlier' node := by
  match node with
  | ⟨model, position, nested⟩ =>
    have hsharing := mem_filter_congr
      (mem_filter_congr h (layout.hasPartner ⟨model, position, nested⟩))
      (sameKey (layout.key? ⟨model, position, nested⟩) row)
    rw [probe, probe]
    unfold sharing
    rw [isEmpty_congr hsharing, probeAll_congr hsharing nested]

/-- The same for several nodes. -/
theorem probeAll_congr {earlier earlier' : List RawRow} (h : ∀ r, r ∈ earlier ↔ r ∈ earlier')
    (nodes : List Node) :
    layout.probeAll row earlier nodes = layout.probeAll row earlier' nodes := by
  match nodes with
  | [] => rw [probeAll, probeAll]
  | node :: rest =>
    rw [probeAll, probeAll, probe_congr h node, probeAll_congr h rest]

end

mutual

/-- **A row behind itself.** A row that passed the reads for a relation behind some rows passes them
behind rows among which it is. -/
theorem probe_again {before earlier : List RawRow} (node : Node)
    (htells : ∀ n ∈ node.preorder, layout.Tells n row)
    (h : layout.probe row before node = .ok ()) (hmem : row ∈ earlier) :
    layout.probe row earlier node = .ok () := by
  match node with
  | ⟨model, position, nested⟩ =>
    cases hvalue : layout.value row ⟨model, position, nested⟩ model.primaryKey with
    | error e =>
      rw [probe_error hvalue] at h
      cases h
    | ok found =>
      by_cases hpartner : layout.hasPartner ⟨model, position, nested⟩ row = true
      · obtain ⟨key, rfl, hnull⟩ := exists_key_of_hasPartner hvalue hpartner
        rw [probe_partner hvalue hnull] at h
        obtain ⟨-, -, hnested⟩ := bind_eq_ok.1 h
        -- the row shares its partner with itself, so that the fields are not read again
        have hsharing : row ∈ layout.sharing ⟨model, position, nested⟩ row earlier :=
          List.mem_filter.2 ⟨List.mem_filter.2 ⟨hmem, hpartner⟩,
            htells _ (Node.mem_preorder_self _) hpartner⟩
        have hfull : (layout.sharing ⟨model, position, nested⟩ row earlier).isEmpty = false :=
          List.isEmpty_eq_false_iff_exists_mem.2 ⟨row, hsharing⟩
        rw [probe_partner hvalue hnull, hfull]
        rw [Node.preorder] at htells
        exact probeAll_again nested (fun n hn => htells n (List.mem_cons_of_mem _ hn)) hnested
          hsharing
      · exact probe_absent hvalue (Bool.not_eq_true _ ▸ hpartner) earlier

/-- A row that passed once passes again. -/
theorem probeAll_again {before earlier : List RawRow} (nodes : List Node)
    (htells : ∀ n ∈ Node.preorderAll nodes, layout.Tells n row)
    (h : layout.probeAll row before nodes = .ok ()) (hmem : row ∈ earlier) :
    layout.probeAll row earlier nodes = .ok () := by
  match nodes with
  | [] => rw [probeAll]
  | node :: rest =>
    rw [Node.preorderAll] at htells
    rw [probeAll] at h
    obtain ⟨⟨⟩, hnode, hrest⟩ := bind_eq_ok.1 h
    rw [probeAll, probe_again node (fun n hn => htells n (List.mem_append_left _ hn)) hnode hmem]
    exact probeAll_again rest (fun n hn => htells n (List.mem_append_right _ hn)) hrest hmem

end

/-! ### The reads for rows with copies -/

/-- The reads for the roots are steps in turn. -/
theorem probeRoots_eq (earlier rows : List RawRow) :
    layout.probeRoots earlier rows = inTurn layout.probeRoot earlier rows := by
  induction rows generalizing earlier with
  | nil => rfl
  | cons row rest ih =>
    rw [probeRoots, inTurn]
    exact congrArg _ (funext fun _ => ih _)

/-- The reads for one relation are steps in turn. -/
theorem probeRows_eq (node : Node) (earlier rows : List RawRow) :
    layout.probeRows node earlier rows =
      inTurn (fun row earlier => layout.probe row (layout.sharingRoot row earlier) node)
        earlier rows := by
  induction rows generalizing earlier with
  | nil => rfl
  | cons row rest ih =>
    rw [probeRows, inTurn]
    exact congrArg _ (funext fun _ => ih _)

/-- Copies of rows leave the outcome of the reads for the roots. -/
theorem probeRoots_repeats (hroot : ∀ row ∈ rows, layout.TellsRoot row)
    (h : Repeats rows rows') : layout.probeRoots [] rows' = layout.probeRoots [] rows := by
  rw [probeRoots_eq, probeRoots_eq]
  refine inTurn_repeats (fun row earlier earlier' hmem => ?_) h
    fun row hrow before earlier hok hmem => ?_
  · unfold probeRoot sharingRoot
    rw [isEmpty_congr (mem_filter_congr hmem _)]
  · unfold probeRoot at hok ⊢
    obtain ⟨found, hfound, -⟩ := bind_eq_ok.1 hok
    have hshares : row ∈ layout.sharingRoot row earlier :=
      List.mem_filter.2 ⟨hmem, hroot row hrow found hfound⟩
    have hfull : (layout.sharingRoot row earlier).isEmpty = false :=
      List.isEmpty_eq_false_iff_exists_mem.2 ⟨row, hshares⟩
    rw [hfound, hfull]
    rfl

/-- Where the pass over the roots succeeded, the key of every row was read, and tells its root. -/
theorem sameKey_of_probeRoots (hroot : ∀ row ∈ rows, layout.TellsRoot row)
    (hok : layout.probeRoots [] rows = .ok ()) :
    ∀ row ∈ rows, sameKey (layout.key? layout.root) row row = true := by
  intro row hrow
  rw [probeRoots_eq] at hok
  obtain ⟨before, hstep⟩ := exists_step_of_inTurn hok hrow
  unfold probeRoot at hstep
  obtain ⟨found, hfound, -⟩ := bind_eq_ok.1 hstep
  exact hroot row hrow found hfound

/-- Copies of rows leave the outcome of the reads for one relation. -/
theorem probeRows_repeats
    (hroot : ∀ row ∈ rows, sameKey (layout.key? layout.root) row row = true)
    (htells : ∀ n ∈ node.preorder, ∀ row ∈ rows, layout.Tells n row) (h : Repeats rows rows') :
    layout.probeRows node [] rows' = layout.probeRows node [] rows := by
  rw [probeRows_eq, probeRows_eq]
  refine inTurn_repeats (fun row earlier earlier' hmem => ?_) h
    fun row hrow before earlier hok hmem => ?_
  · exact probe_congr (mem_filter_congr hmem _) node
  · exact probe_again node (fun n hn => htells n hn row hrow) hok
      (List.mem_filter.2 ⟨hmem, hroot row hrow⟩)

/-- Copies of rows leave the outcome of the reads for several relations. -/
theorem probeRelations_repeats
    (hroot : ∀ row ∈ rows, sameKey (layout.key? layout.root) row row = true) {nodes : List Node}
    (htells : ∀ n ∈ Node.preorderAll nodes, ∀ row ∈ rows, layout.Tells n row)
    (h : Repeats rows rows') :
    layout.probeRelations rows' nodes = layout.probeRelations rows nodes := by
  induction nodes with
  | nil => rfl
  | cons node rest ih =>
    rw [Node.preorderAll] at htells
    rw [probeRelations, probeRelations,
      probeRows_repeats hroot (fun n hn => htells n (List.mem_append_left _ hn)) h,
      ih fun n hn => htells n (List.mem_append_right _ hn)]

end Layout

/-- **Multiplied rows are harmless.** Where the models declare their primary keys, and the rows have
the key of the base table and no key that is a NaN, copies of rows that are there already change
neither the forest that is assembled nor the error that is reported. -/
theorem assemble_repeats {base : Model} {joins : List Join} {rows rows' : List RawRow}
    (hdeclared : ∀ m ∈ base :: Join.preorderAll joins, m.declares m.primaryKey = true)
    (hbase : ∀ row ∈ rows, (row.get? base.primaryKey).isSome = true)
    (hnan : ∀ layout, Layout.ofJoins base joins = .ok layout → ∀ node ∈ layout.root.preorder,
      ∀ row ∈ rows, ∀ key, layout.reading node node.model.primaryKey row = some key →
        key.isNaN = false)
    (h : Repeats rows rows') : assemble base joins rows' = assemble base joins rows := by
  cases hlayout : Layout.ofJoins base joins with
  | error e =>
    unfold assemble
    rw [hlayout]
    rfl
  | ok layout =>
    have hmodels : ∀ node ∈ layout.root.preorder,
        node.model.declares node.model.primaryKey = true := by
      intro node hnode
      refine hdeclared _ ?_
      rw [Layout.root_ofJoins hlayout, Node.preorder, List.mem_cons] at hnode
      rcases hnode with rfl | hnode
      · exact List.mem_cons_self
      · rw [← (Node.preorderAll_ofJoins 1 joins).1]
        exact List.mem_cons_of_mem _ (List.mem_map_of_mem hnode)
    have hkeys := hnan layout hlayout
    rw [Node.preorder_eq] at hmodels hkeys
    -- a row that shares its key with itself is found again by its copies
    have htells : ∀ n ∈ Node.preorderAll layout.root.nested, ∀ row ∈ rows, layout.Tells n row := by
      intro n hn row hrow hpartner
      unfold Layout.hasPartner at hpartner
      obtain ⟨key, hkey, -⟩ := Option.any_eq_true _ _ |>.1 hpartner
      exact Layout.sameKey_self (hmodels n (List.mem_cons_of_mem _ hn)) hkey
        (hkeys n (List.mem_cons_of_mem _ hn) row hrow key hkey)
    have hroot : ∀ row ∈ rows, layout.TellsRoot row := by
      intro row hrow found hfound
      have hreading := Layout.reading_of_value hfound
      cases found with
      | some key =>
        exact Layout.sameKey_self (hmodels _ List.mem_cons_self) hreading
          (hkeys _ List.mem_cons_self row hrow key hreading)
      | none =>
        rw [Layout.root_ofJoins hlayout] at hfound
        exact absurd hfound (Layout.value_ne_none (hbase row hrow))
    -- assembly is the reads and then the forest; copies change neither, and the forest only counts
    -- where the roots could be read
    rw [assemble_eq hlayout, assemble_eq hlayout]
    unfold Layout.probeForest
    rw [Layout.probeRoots_repeats hroot h]
    cases hok : layout.probeRoots [] rows with
    | error e => rfl
    | ok _ =>
      have hself := Layout.sameKey_of_probeRoots hroot hok
      rw [Layout.probeRelations_repeats hself htells h, Layout.forest_repeats hself htells h]

namespace Survey

/-- Rows of two exercises, one without questions and one with two of them. -/
def single : List RawRow :=
  [row (some 2) (some 5) (some 8), row (some 1) none none, row (some 2) (some 6) none]

/-- The same rows, with copies of all of them. -/
def multiplied : List RawRow :=
  [row (some 2) (some 5) (some 8), row (some 2) (some 5) (some 8), row (some 1) none none,
    row (some 2) (some 5) (some 8), row (some 2) (some 6) none, row (some 1) none none,
    row (some 2) (some 6) none]

/-- The rows with copies of some of them. -/
theorem repeats_multiplied : Repeats single multiplied := by
  let a := row (some 2) (some 5) (some 8)
  let b := row (some 1) none none
  let c := row (some 2) (some 6) none
  have h : Repeats [a, b, c] ([a] ++ a :: [b, c]) := .again (by simp) .same
  have h : Repeats [a, b, c] ([a, a, b] ++ a :: [c]) := .again (by simp) h
  have h : Repeats [a, b, c] ([a, a, b, a, c] ++ b :: []) := .again (by simp) h
  have h : Repeats [a, b, c] ([a, a, b, a, c, b] ++ c :: []) := .again (by simp) h
  exact h

end Survey

/-- Copies among the rows of two exercises. -/
theorem assemble_repeats_survey :
    Repeats Survey.single Survey.multiplied ∧
      assemble Survey.exercises Survey.joins Survey.multiplied =
        assemble Survey.exercises Survey.joins Survey.single := by
  refine ⟨Survey.repeats_multiplied, assemble_repeats (by decide) (by decide) ?_
    Survey.repeats_multiplied⟩
  intro layout hlayout node hnode row hrow key hkey
  cases hlayout
  have hall : ∀ node ∈ Survey.layout.root.preorder, ∀ row ∈ Survey.single,
      (Survey.layout.reading node node.model.primaryKey row).all (fun key => !key.isNaN) =
        true := by
    decide
  have hkey' : Survey.layout.reading node node.model.primaryKey row = some key := hkey
  have h := hall node hnode row hrow
  rw [hkey'] at h
  simpa using h

end QueryForest
