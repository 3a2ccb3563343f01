import Mathlib.Data.Multiset.MapFold
import QueryForest.Proofs.Forest.Passing

namespace QueryForest

/-!
# Rows in another order

A database returns rows in any order unless it is asked for one, and the order decides which row is
the first of a record. Where rows with the same keys have the same values, that makes no difference
but for the order of the records.

* `Record.Reordered` — two records that differ in the order of related records only, at every depth;
* `Layout.Consistent` — rows that agree on the keys on the way to a table agree on its fields;
* `eraseDupsBy_perm`, `groupsBy_perm` — groups of rows in another order are the same groups in
  another order;
* `Layout.grouped_reordered` — the record of a group of consistent rows;
* `assemble_perm` — the forest of consistent rows.
-/

/-! ### Records in another order -/

mutual

/-- Two records with the same fields, up to `agree`, whose related records are in another order. -/
inductive Record.Reordered (agree : Scalar → Scalar → Prop) : Record → Record → Prop
  | mk {model : Model} {values values' : List (String × Scalar)}
      {slots slots' : List (String × List Record)}
      (fields : List.Forall₂ (fun e e' => e.1 = e'.1 ∧ agree e.2 e'.2) values values')
      (related : Record.SlotsReordered agree slots slots') :
      Record.Reordered agree ⟨model, values, slots⟩ ⟨model, values', slots'⟩

/-- The same slots, each with the same records in another order. -/
inductive Record.SlotsReordered (agree : Scalar → Scalar → Prop) :
    List (String × List Record) → List (String × List Record) → Prop
  | nil : Record.SlotsReordered agree [] []
  | cons {slot : String} {records records' : List Record}
      {rest rest' : List (String × List Record)}
      (here : Multiset.Rel (Record.Reordered agree) ↑records ↑records')
      (others : Record.SlotsReordered agree rest rest') :
      Record.SlotsReordered agree ((slot, records) :: rest) ((slot, records') :: rest')

end

/-! ### Groups of rows in another order -/

section Arrivals

variable {α : Type} {r : α → α → Bool}

/-- A comparison that is symmetric and transitive, but need not hold of an element and itself. -/
structure PartialEquivalence (r : α → α → Bool) : Prop where
  symm : ∀ a b, r a b = r b a
  trans : ∀ a b c, r a b = true → r b c = true → r a c = true

/-- Two elements that are equal or taken for the same. -/
def EqOrSame (r : α → α → Bool) (a b : α) : Prop := a = b ∨ r a b = true

/-- What is equal or taken for the same is related to the same elements. -/
theorem EqOrSame.congr (hr : PartialEquivalence r) {a b : α} (h : EqOrSame r a b) (x : α) :
    r x a = r x b := by
  rcases h with rfl | hab
  · rfl
  · rw [Bool.eq_iff_iff]
    exact ⟨fun hx => hr.trans x a b hx hab, fun hx => hr.trans x b a hx (hr.symm a b ▸ hab)⟩

/-- Being equal or taken for the same is transitive. -/
theorem EqOrSame.isTrans (hr : PartialEquivalence r) : IsTrans α (EqOrSame r) := by
  refine ⟨fun a b c hab hbc => ?_⟩
  rcases hbc with rfl | hbc
  · exact hab
  · rcases hab with rfl | hab
    · exact Or.inr hbc
    · exact Or.inr (hr.trans a b c hab hbc)

/-- A multiset is related to itself, whatever is taken for the same. -/
theorem EqOrSame.rel_refl (s : Multiset α) : Multiset.Rel (EqOrSame r) s s :=
  Multiset.rel_refl_of_refl_on fun _ _ => Or.inl rfl

/-- Where elements are in relation, a property that does not tell them apart occurs in both. -/
theorem any_eq_of_rel {ρ : α → α → Prop} {l l' : List α} {p : α → Bool}
    (h : Multiset.Rel ρ ↑l ↑l') (hp : ∀ a b, ρ a b → p a = p b) : l.any p = l'.any p := by
  have hmem : ∀ {l l' : List α} {ρ : α → α → Prop}, Multiset.Rel ρ ↑l ↑l' →
      (∀ a b, ρ a b → p a = p b) → l.any p = true → l'.any p = true := by
    intro l l' ρ h hp hany
    obtain ⟨a, ha, hpa⟩ := List.any_eq_true.1 hany
    obtain ⟨b, hb, hab⟩ := Multiset.exists_mem_of_rel_of_mem h (Multiset.mem_coe.2 ha)
    exact List.any_eq_true.2 ⟨b, Multiset.mem_coe.1 hb, hp a b hab ▸ hpa⟩
  rw [Bool.eq_iff_iff]
  exact ⟨hmem h hp, hmem (Multiset.rel_flip.2 h) fun a b hab => (hp b a hab).symm⟩

/-- Two elements that change places at the end. -/
theorem eraseDupsBy_swap (hr : PartialEquivalence r) (l : List α) (x y : α) :
    Multiset.Rel (EqOrSame r) ↑((l ++ [x] ++ [y]).eraseDupsBy r)
      ↑((l ++ [y] ++ [x]).eraseDupsBy r) := by
  simp only [eraseDupsBy_concat]
  generalize l.eraseDupsBy r = kept
  -- if one of the two is not kept anyway, the order makes no difference
  by_cases hx : kept.any (r x) = true <;> by_cases hy : kept.any (r y) = true
  · simpa [hx, hy] using EqOrSame.rel_refl _
  · simpa [hx, hy] using EqOrSame.rel_refl _
  · simpa [hx, hy] using EqOrSame.rel_refl _
  · rw [if_neg hx, if_neg hy, List.any_append, List.any_append, Bool.eq_false_iff.2 hx,
      Bool.eq_false_iff.2 hy, Bool.false_or, Bool.false_or]
    by_cases hxy : r x y = true
    · -- one of the two is kept, and it stands for the other
      have hyx : r y x = true := hr.symm x y ▸ hxy
      have hsame : EqOrSame r x y := Or.inr hxy
      simp only [List.any_cons, hxy, hyx, Bool.true_or, if_true]
      rw [← Multiset.coe_add, ← Multiset.coe_add]
      exact Multiset.Rel.add (EqOrSame.rel_refl _) (.cons hsame .zero)
    · -- both are kept, in either order
      have hyx : ¬ r y x = true := fun h => hxy (hr.symm x y ▸ h)
      have hperm : (kept ++ [x] ++ [y]).Perm (kept ++ [y] ++ [x]) := by
        rw [List.append_assoc, List.append_assoc]
        exact (List.Perm.swap y x []).append_left kept
      simp only [List.any_cons, hxy, hyx, List.any_nil, Bool.or_false, Bool.false_eq_true, if_false]
      rw [Multiset.coe_eq_coe.2 hperm]
      exact EqOrSame.rel_refl _

/-- **First arrivals in another order.** The elements that are kept are the same up to `r`, in
another order. -/
theorem eraseDupsBy_perm (hr : PartialEquivalence r) {l l' : List α} (h : l.Perm l') :
    Multiset.Rel (EqOrSame r) ↑(l.eraseDupsBy r) ↑(l'.eraseDupsBy r) := by
  -- one more element goes to the end, so the induction is on the reversed lists
  suffices hreverse : ∀ {k k' : List α}, k.Perm k' →
      Multiset.Rel (EqOrSame r) ↑(k.reverse.eraseDupsBy r) ↑(k'.reverse.eraseDupsBy r) by
    have hboth := hreverse ((List.reverse_perm l).trans (h.trans (List.reverse_perm l').symm))
    rwa [List.reverse_reverse, List.reverse_reverse] at hboth
  intro k k' hk
  induction hk with
  | nil => exact EqOrSame.rel_refl _
  | @cons x k k' _ ih =>
    rw [List.reverse_cons, List.reverse_cons, eraseDupsBy_concat, eraseDupsBy_concat,
      any_eq_of_rel ih fun a b hab => hab.congr hr x]
    split
    · exact ih
    · rw [← Multiset.coe_add, ← Multiset.coe_add]
      exact Multiset.Rel.add ih (EqOrSame.rel_refl _)
  | swap x y k =>
    rw [List.reverse_cons, List.reverse_cons, List.reverse_cons, List.reverse_cons]
    exact eraseDupsBy_swap hr k.reverse x y
  | trans _ _ ih ih' =>
    have := EqOrSame.isTrans hr
    exact Multiset.Rel.trans _ ih ih'

end Arrivals

section Groups

variable {α : Type} {key : α → Option Scalar} {rows rows' : List α}

/-- Two rows of one group are the same row or have the same key. -/
theorem eq_or_sameKey_of_mem_groupsBy {group : List α} (h : group ∈ groupsBy key rows) {a b : α}
    (ha : a ∈ group) (hb : b ∈ group) : EqOrSame (sameKey key) a b := by
  obtain ⟨first, -, rfl⟩ := List.mem_map.1 h
  unfold companions at ha hb
  split at ha
  · next hself =>
    rw [if_pos hself] at hb
    have hfirst := (List.mem_filter.1 ha).2
    exact Or.inr (sameKey_trans (sameKey_comm first a ▸ hfirst) (List.mem_filter.1 hb).2)
  · next hself =>
    rw [if_neg hself] at hb
    rw [List.mem_singleton.1 ha, List.mem_singleton.1 hb]
    exact Or.inl rfl

/-- The companions of a row among rows in another order. -/
theorem companions_perm (h : rows.Perm rows') {a b : α} (hab : EqOrSame (sameKey key) a b) :
    (companions key rows a).Perm (companions key rows' b) := by
  unfold companions
  rcases hab with rfl | hab
  · split
    · exact h.filter _
    · exact List.Perm.refl _
  · have hself : sameKey key a a = true := by
      rw [sameKey_congr hab, sameKey_comm]
      exact hab
    have hsame : sameKey key a = sameKey key b := funext fun c => sameKey_congr hab c
    rw [if_pos hself, if_pos (sameKey_self_right hab), hsame]
    exact h.filter _

/-- **Groups of rows in another order** are the same groups in another order, each of them with its
rows in another order. -/
theorem groupsBy_perm (key : α → Option Scalar) (h : rows.Perm rows') :
    Multiset.Rel List.Perm (groupsBy key rows : Multiset (List α)) (groupsBy key rows') := by
  have hr : PartialEquivalence (sameKey key) := ⟨sameKey_comm, fun _ _ _ => sameKey_trans⟩
  have hkept := eraseDupsBy_perm hr h
  unfold groupsBy
  rw [← Multiset.map_coe, ← Multiset.map_coe, Multiset.rel_map]
  exact hkept.mono fun a _ b _ hab => companions_perm h hab

end Groups

/-! ### Consistent rows -/

/-- Readings that agree find entries that agree. -/
theorem foundEntries_forall₂ {α : Type} {ρ : α → α → Prop} {g g' : String → Option α}
    {names : List String} (h : ∀ name ∈ names, Option.Rel ρ (g name) (g' name)) :
    List.Forall₂ (fun e e' => e.1 = e'.1 ∧ ρ e.2 e'.2) (foundEntries g names)
      (foundEntries g' names) := by
  have hdistinct : ∀ name ∈ names.eraseDups, Option.Rel ρ (g name) (g' name) :=
    fun name hname => h name (List.mem_eraseDups.1 hname)
  unfold foundEntries
  generalize names.eraseDups = distinct at hdistinct ⊢
  induction distinct with
  | nil => exact .nil
  | cons name rest ih =>
    have hrest := ih fun n hn => hdistinct n (List.mem_cons_of_mem _ hn)
    have hhere := hdistinct name List.mem_cons_self
    rw [List.filterMap_cons, List.filterMap_cons]
    -- both readings find the name or neither does
    cases hg : g name with
    | none =>
      rw [hg] at hhere
      cases hg' : g' name with
      | none => exact hrest
      | some w => rw [hg'] at hhere; cases hhere
    | some v =>
      rw [hg] at hhere
      cases hg' : g' name with
      | none => rw [hg'] at hhere; cases hhere
      | some w =>
        rw [hg'] at hhere
        cases hhere with
        | some hvalue => exact .cons ⟨rfl, hvalue⟩ hrest

namespace Layout

variable (layout : Layout) (agree : Scalar → Scalar → Prop)

/-- Whether two rows have the same values in the declared fields of a table, up to `agree`. -/
def FieldsAgree (node : Node) (a b : RawRow) : Prop :=
  ∀ field ∈ node.model.fields,
    Option.Rel agree (layout.reading node field a) (layout.reading node field b)

/-- Whether rows with the same keys on the way from the base table to another table have the same
values in its declared fields, up to `agree`. -/
def Consistent (rows : List RawRow) : Prop :=
  ∀ path node, layout.root.Path path node → ∀ a ∈ rows, ∀ b ∈ rows,
    (∀ n ∈ layout.root :: path, sameKey (layout.key? n) a b = true) →
    (∀ n ∈ path, layout.hasPartner n a = true) → layout.FieldsAgree agree node a b

/-- Whether the rows of a record of a node are consistent in its fields and below it. -/
def ConsistentBelow (node : Node) (rows : List RawRow) : Prop :=
  ∀ path target, node.Path path target → ∀ a ∈ rows, ∀ b ∈ rows,
    (∀ n ∈ path, sameKey (layout.key? n) a b = true ∧ layout.hasPartner n a = true) →
      layout.FieldsAgree agree target a b

variable {layout agree} {rows rows' : List RawRow}

/-- A row agrees with itself, if every value does. -/
theorem fieldsAgree_self (hself : ∀ v, agree v v) (node : Node) (row : RawRow) :
    layout.FieldsAgree agree node row row := by
  intro field _
  cases layout.reading node field row with
  | none => exact .none
  | some v => exact .some (hself v)

/-- Rows that agree in the declared fields give fields that agree one by one. -/
theorem fieldsOf_agree {node : Node} {a b : RawRow} (h : layout.FieldsAgree agree node a b) :
    List.Forall₂ (fun e e' => e.1 = e'.1 ∧ agree e.2 e'.2) (layout.fieldsOf node a)
      (layout.fieldsOf node b) :=
  foundEntries_forall₂ h

/-- The rows of a related record are consistent if those of its parent are. -/
theorem consistentBelow_of_mem (hself : ∀ v, agree v v) {node next : Node}
    (h : layout.ConsistentBelow agree node rows) (hnext : next ∈ node.nested)
    {group : List RawRow} (hgroup : group ∈ layout.partners next rows) :
    layout.ConsistentBelow agree next group := by
  intro path target hpath a ha b hb hkeys
  obtain ⟨harows, hpartner⟩ := List.mem_filter.1 (subset_of_mem_groupsBy hgroup ha)
  have hbrows := (List.mem_filter.1 (subset_of_mem_groupsBy hgroup hb)).1
  rcases eq_or_sameKey_of_mem_groupsBy hgroup ha hb with rfl | hkey
  · exact fieldsAgree_self hself target a
  · refine h (next :: path) target (.into hnext hpath) a harows b hbrows fun n hn => ?_
    rcases List.mem_cons.1 hn with rfl | hn
    · exact ⟨hkey, hpartner⟩
    · exact hkeys n hn

/-! ### Records of rows in another order -/

mutual

/-- **The record of consistent rows in another order** is the same but for the order below it. -/
theorem grouped_reordered (hself : ∀ v, agree v v) {rows rows' : List RawRow}
    (hrows : rows.Perm rows') (node : Node) (h : layout.ConsistentBelow agree node rows) :
    Record.Reordered agree (layout.grouped node rows) (layout.grouped node rows') := by
  match node with
  | ⟨model, position, nested⟩ =>
    rw [grouped, grouped]
    refine .mk ?_ (groupedSlots_reordered hself hrows nested fun next hnext group hgroup => ?_)
    · match rows, rows' with
      | [], [] => exact .nil
      | [], _ :: _ => cases hrows.nil_eq
      | _ :: _, [] => cases hrows.eq_nil
      | a :: rest, b :: rest' =>
        have hb : b ∈ a :: rest := hrows.mem_iff.2 List.mem_cons_self
        exact fieldsOf_agree (h [] _ (.here _) a List.mem_cons_self b hb
          fun n hn => absurd hn List.not_mem_nil)
    · exact consistentBelow_of_mem hself h hnext hgroup

/-- Slots are reordered with the rows, if these are consistent below. -/
theorem groupedSlots_reordered (hself : ∀ v, agree v v) {rows rows' : List RawRow}
    (hrows : rows.Perm rows') (nodes : List Node)
    (h : ∀ next ∈ nodes, ∀ group ∈ layout.partners next rows,
      layout.ConsistentBelow agree next group) :
    Record.SlotsReordered agree (layout.groupedSlots nodes rows)
      (layout.groupedSlots nodes rows') := by
  match nodes with
  | [] =>
    rw [groupedSlots, groupedSlots]
    exact .nil
  | node :: rest =>
    rw [groupedSlots_cons, groupedSlots_cons]
    refine .cons ?_ (groupedSlots_reordered hself hrows rest
      fun next hnext => h next (List.mem_cons_of_mem _ hnext))
    have hgroups := groupsBy_perm (layout.key? node) (hrows.filter (layout.hasPartner node))
    unfold children partners
    rw [← Multiset.map_coe, ← Multiset.map_coe, Multiset.rel_map]
    exact hgroups.mono fun group hgroup group' _ hperm =>
      grouped_reordered hself hperm node (h node List.mem_cons_self group hgroup)

end

/-- **The forest of consistent rows in another order.** -/
theorem forest_reordered (hself : ∀ v, agree v v) (hrows : rows.Perm rows')
    (h : layout.Consistent agree rows) :
    Multiset.Rel (Record.Reordered agree) ↑(layout.forest rows) ↑(layout.forest rows') := by
  unfold forest
  rw [← Multiset.map_coe, ← Multiset.map_coe, Multiset.rel_map]
  refine (groupsBy_perm (layout.key? layout.root) hrows).mono fun group hgroup group' _ hperm =>
    grouped_reordered hself hperm layout.root fun path target hpath a ha b hb hkeys => ?_
  rcases eq_or_sameKey_of_mem_groupsBy hgroup ha hb with rfl | hkey
  · exact fieldsAgree_self hself target a
  · refine h path target hpath a (subset_of_mem_groupsBy hgroup ha) b
      (subset_of_mem_groupsBy hgroup hb) (fun n hn => ?_) fun n hn => (hkeys n hn).2
    rcases List.mem_cons.1 hn with rfl | hn
    · exact hkey
    · exact (hkeys n hn).1

end Layout

/-- **Row order only affects order.** Let every table be readable from every row, and let rows with
the same keys on the way to a table have the same values in it, up to an `agree` that takes every
value for itself. Then the rows are assembled in every order, and the forests differ in the order of
the roots and of the records of each slot only, at every depth. Nothing is asked of the keys: a row
whose key is not declared, or is a NaN, stands alone in every order. -/
theorem assemble_perm {base : Model} {joins : List Join} {layout : Layout}
    (hlayout : Layout.ofJoins base joins = .ok layout) {agree : Scalar → Scalar → Prop}
    (hself : ∀ v, agree v v) {rows rows' : List RawRow}
    (hreadable : ∀ row ∈ rows, ∀ node ∈ layout.root.preorder, layout.Readable row node)
    (hconsistent : layout.Consistent agree rows) (h : rows.Perm rows') :
    ∃ forest forest', assemble base joins rows = .ok forest ∧
      assemble base joins rows' = .ok forest' ∧
        Multiset.Rel (Record.Reordered agree) ↑forest ↑forest' := by
  have hassembles : ∀ row ∈ rows, layout.Assembles row := fun row hrow =>
    Layout.assembles_of_readable (hreadable row hrow)
  refine ⟨layout.forest rows, layout.forest rows', ?_, ?_,
    Layout.forest_reordered hself h hconsistent⟩
  · rw [assemble_eq hlayout, Layout.probeForest_of_assembles hassembles]
    rfl
  · rw [assemble_eq hlayout,
      Layout.probeForest_of_assembles fun row hrow => hassembles row (h.mem_iff.2 hrow)]
    rfl

namespace Survey

/-- Rows of two exercises, one with two questions, of which one has two responses. -/
def arranged : List RawRow :=
  [row (some 2) (some 5) (some 8), row (some 2) (some 5) (some 9), row (some 2) (some 6) none,
    row (some 1) none none]

/-- The same rows with the last one first. -/
def turned : List RawRow :=
  [row (some 1) none none, row (some 2) (some 6) none, row (some 2) (some 5) (some 9),
    row (some 2) (some 5) (some 8)]

/-- The tables of the request with the ways to them. -/
def ways : List (List Node × Node) :=
  let response : Node := ⟨responses, 2, []⟩
  let question : Node := ⟨questions, 1, [response]⟩
  [([], layout.root), ([question], question), ([question, response], response)]

/-- The ways to the tables of the survey. -/
theorem mem_ways {path : List Node} {node : Node} (h : layout.root.Path path node) :
    (path, node) ∈ ways := by
  cases h with
  | here => simp [ways]
  | into hmem hrest =>
    rw [List.mem_singleton.1 hmem] at hrest ⊢
    cases hrest with
    | here => simp [ways]
    | into hmem' hrest' =>
      rw [List.mem_singleton.1 hmem'] at hrest' ⊢
      cases hrest' with
      | here => simp [ways]
      | into hmem'' _ => cases hmem''

/-- In these rows the keys decide the values. -/
theorem consistent_arranged : layout.Consistent (· = ·) arranged := by
  intro path node hpath a ha b hb hkeys hpartners field hfield
  have hall : ∀ way ∈ ways, ∀ a ∈ arranged, ∀ b ∈ arranged,
      (∀ n ∈ layout.root :: way.1, sameKey (layout.key? n) a b = true) →
      (∀ n ∈ way.1, layout.hasPartner n a = true) → ∀ field ∈ way.2.model.fields,
        layout.reading way.2 field a = layout.reading way.2 field b := by
    decide
  rw [hall _ (mem_ways hpath) a ha b hb hkeys hpartners field hfield]
  cases layout.reading node field b with
  | none => exact .none
  | some v => exact .some rfl

/-- Every table can be read from these rows. -/
theorem readable_arranged : ∀ row ∈ arranged, ∀ node ∈ layout.root.preorder,
    layout.Readable row node := by
  intro row hrow node hnode
  have hall : ∀ row ∈ arranged, ∀ node ∈ layout.root.preorder,
      ∀ field ∈ node.model.primaryKey :: node.model.fields,
        (layout.value row node field).toOption.isSome = true := by
    decide
  have hvalue : ∀ field ∈ node.model.primaryKey :: node.model.fields,
      ∃ found, layout.value row node field = .ok found := by
    intro field hfield
    have hsome := hall row hrow node hnode field hfield
    cases hread : layout.value row node field with
    | error e => rw [hread] at hsome; cases hsome
    | ok found => exact ⟨found, rfl⟩
  exact ⟨hvalue _ List.mem_cons_self,
    Layout.check_eq_ok_iff.2 fun field hfield => hvalue field (List.mem_cons_of_mem _ hfield)⟩

end Survey

/-- The rows of two exercises from the last one on. -/
theorem assemble_perm_survey :
    Survey.arranged.Perm Survey.turned ∧
      ∃ forest forest', assemble Survey.exercises Survey.joins Survey.arranged = .ok forest ∧
        assemble Survey.exercises Survey.joins Survey.turned = .ok forest' ∧
          Multiset.Rel (Record.Reordered (· = ·)) ↑forest ↑forest' := by
  have hlayout : Layout.ofJoins Survey.exercises Survey.joins = .ok Survey.layout := rfl
  have hperm : Survey.arranged.Perm Survey.turned := Survey.arranged.reverse_perm.symm
  exact ⟨hperm, assemble_perm hlayout (fun _ => rfl) Survey.readable_arranged
    Survey.consistent_arranged hperm⟩

end QueryForest
