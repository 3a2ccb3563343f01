import QueryForest.Proofs.Forest.Assembly

namespace QueryForest

/-!
# Rows that can be assembled

An assembly fails when a column occurs too rarely in a row from which it is read, and which columns
are read depends on the rows before. Where all rows have the same columns that makes no difference:
rows can be assembled together when each of them can be assembled alone.

* `Layout.Passes` — a single row passes the reads for a relation, as far down as it has partners;
* `Layout.Assembles` — a single row passes all reads;
* `Layout.Assembles.mono` — a row with fewer partners passes too;
* `Layout.probeForest_eq_ok_iff` — rows with the same columns pass all reads if each of them does;
* `Layout.assembles_of_paths` — a row passes all reads if it can be read for the base table and for
  every table to whose parent it has all partners on the way.
-/

namespace Layout

variable (layout : Layout)

mutual

/-- Whether a row passes the reads for a node, and those below it if it has a partner. -/
def Passes (row : RawRow) : Node → Prop
  | ⟨model, position, nested⟩ =>
    (∃ found, layout.value row ⟨model, position, nested⟩ model.primaryKey = .ok found) ∧
      (layout.hasPartner ⟨model, position, nested⟩ row = true →
        layout.check ⟨model, position, nested⟩ row = .ok () ∧ PassesAll row nested)

/-- Whether a row passes the reads for several nodes. -/
def PassesAll (row : RawRow) : List Node → Prop
  | [] => True
  | node :: rest => Passes row node ∧ PassesAll row rest

end

/-- Whether a row passes all reads of an assembly. -/
structure Assembles (row : RawRow) : Prop where
  key : ∃ found, layout.value row layout.root layout.root.model.primaryKey = .ok found
  fields : layout.check layout.root row = .ok ()
  relations : layout.PassesAll row layout.root.nested

/-- Whether whatever can be read from one row can be read from another. -/
structure Covers (a b : RawRow) : Prop where
  key : ∀ node : Node, (∃ found, layout.value a node node.model.primaryKey = .ok found) →
    ∃ found, layout.value b node node.model.primaryKey = .ok found
  fields : ∀ node, layout.check node a = .ok () → layout.check node b = .ok ()

variable {layout} {row : RawRow} {node : Node}

/-- Passing the reads for several nodes is passing those for each. -/
theorem passesAll_iff {nodes : List Node} :
    layout.PassesAll row nodes ↔ ∀ node ∈ nodes, layout.Passes row node := by
  induction nodes with
  | nil => simp [PassesAll]
  | cons node rest ih => simp [PassesAll, ih]

/-! ### Fewer partners -/

mutual

/-- A row passes if one does that has all its partners, and whose values it has. -/
theorem Passes.mono {a b : RawRow} (hcovers : layout.Covers a b)
    (hpartner : ∀ n, layout.hasPartner n b = true → layout.hasPartner n a = true) (node : Node)
    (h : layout.Passes a node) : layout.Passes b node := by
  match node with
  | ⟨model, position, nested⟩ =>
    rw [Passes] at h ⊢
    refine ⟨hcovers.key _ h.1, fun hb => ?_⟩
    obtain ⟨hfields, hbelow⟩ := h.2 (hpartner _ hb)
    exact ⟨hcovers.fields _ hfields, PassesAll.mono hcovers hpartner nested hbelow⟩

/-- The same for several nodes. -/
theorem PassesAll.mono {a b : RawRow} (hcovers : layout.Covers a b)
    (hpartner : ∀ n, layout.hasPartner n b = true → layout.hasPartner n a = true)
    (nodes : List Node) (h : layout.PassesAll a nodes) : layout.PassesAll b nodes := by
  match nodes with
  | [] => trivial
  | node :: rest =>
    rw [PassesAll] at h ⊢
    exact ⟨Passes.mono hcovers hpartner node h.1, PassesAll.mono hcovers hpartner rest h.2⟩

end

/-- **Fewer partners.** A row with the same columns and no other partners can be assembled too. -/
theorem Assembles.mono {a b : RawRow} (h : layout.Assembles a) (hcovers : layout.Covers a b)
    (hpartner : ∀ n, layout.hasPartner n b = true → layout.hasPartner n a = true) :
    layout.Assembles b :=
  ⟨hcovers.key _ h.key, hcovers.fields _ h.fields,
    PassesAll.mono hcovers hpartner _ h.relations⟩

/-! ### One more row -/

mutual

/-- A row that passes alone passes behind other rows. -/
theorem probe_of_passes (earlier : List RawRow) (node : Node) (h : layout.Passes row node) :
    layout.probe row earlier node = .ok () := by
  match node with
  | ⟨model, position, nested⟩ =>
    rw [Passes] at h
    obtain ⟨⟨found, hfound⟩, hbelow⟩ := h
    by_cases hpartner : layout.hasPartner ⟨model, position, nested⟩ row = true
    · obtain ⟨key, rfl, hnull⟩ := exists_key_of_hasPartner hfound hpartner
      obtain ⟨hfields, hnested⟩ := hbelow hpartner
      rw [probe_partner hfound hnull, hfields, ite_self]
      exact probeAll_of_passesAll _ nested hnested
    · exact probe_absent hfound (Bool.not_eq_true _ ▸ hpartner) earlier

/-- A row that passes needs no read that fails, whatever came before. -/
theorem probeAll_of_passesAll (earlier : List RawRow) (nodes : List Node)
    (h : layout.PassesAll row nodes) : layout.probeAll row earlier nodes = .ok () := by
  match nodes with
  | [] => rw [probeAll]
  | node :: rest =>
    rw [PassesAll] at h
    rw [probeAll, probe_of_passes earlier node h.1]
    exact probeAll_of_passesAll earlier rest h.2

end

mutual

/-- A row that passes behind rows with the same columns, each of which passes alone, passes
alone. -/
theorem passes_of_probe {earlier : List RawRow} (halike : ∀ e ∈ earlier, layout.Covers e row)
    (node : Node) (hearlier : ∀ e ∈ earlier, layout.Passes e node)
    (h : layout.probe row earlier node = .ok ()) : layout.Passes row node := by
  match node with
  | ⟨model, position, nested⟩ =>
    rw [Passes]
    cases hvalue : layout.value row ⟨model, position, nested⟩ model.primaryKey with
    | error e =>
      rw [probe_error hvalue] at h
      cases h
    | ok found =>
      refine ⟨⟨found, rfl⟩, fun hpartner => ?_⟩
      obtain ⟨key, rfl, hnull⟩ := exists_key_of_hasPartner hvalue hpartner
      rw [probe_partner hvalue hnull] at h
      have hsharing : ∀ e ∈ layout.sharing ⟨model, position, nested⟩ row earlier,
          e ∈ earlier ∧ layout.check ⟨model, position, nested⟩ e = .ok () ∧
            layout.PassesAll e nested := by
        intro e he
        have he' := List.mem_filter.1 (List.mem_filter.1 he).1
        have hpasses := hearlier e he'.1
        rw [Passes] at hpasses
        exact ⟨he'.1, hpasses.2 he'.2⟩
      cases hrows : layout.sharing ⟨model, position, nested⟩ row earlier with
      | nil =>
        -- the fields are read from this row
        rw [hrows, List.isEmpty_nil, if_pos rfl] at h
        obtain ⟨⟨⟩, hcheck, h⟩ := bind_eq_ok.1 h
        exact ⟨hcheck, passesAll_of_probeAll (fun e he => absurd he List.not_mem_nil) nested
          (fun e he => absurd he List.not_mem_nil) h⟩
      | cons first others =>
        -- they were read from a row with the same columns
        rw [hrows] at h hsharing
        obtain ⟨hfirst, hcheck, -⟩ := hsharing first List.mem_cons_self
        refine ⟨(halike first hfirst).fields _ hcheck, ?_⟩
        exact passesAll_of_probeAll (fun e he => halike e (hsharing e he).1) nested
          (fun e he => (hsharing e he).2.2) h

/-- A row passes if the reads behind earlier rows succeed, which passed and had what it has. -/
theorem passesAll_of_probeAll {earlier : List RawRow}
    (halike : ∀ e ∈ earlier, layout.Covers e row) (nodes : List Node)
    (hearlier : ∀ e ∈ earlier, layout.PassesAll e nodes)
    (h : layout.probeAll row earlier nodes = .ok ()) : layout.PassesAll row nodes := by
  match nodes with
  | [] => trivial
  | node :: rest =>
    rw [probeAll] at h
    obtain ⟨⟨⟩, hnode, h⟩ := bind_eq_ok.1 h
    have hsplit : ∀ e ∈ earlier, layout.Passes e node ∧ layout.PassesAll e rest := by
      intro e he
      have hpasses := hearlier e he
      rwa [PassesAll] at hpasses
    rw [PassesAll]
    exact ⟨passes_of_probe halike node (fun e he => (hsplit e he).1) hnode,
      passesAll_of_probeAll halike rest (fun e he => (hsplit e he).2) h⟩

end

/-! ### All rows -/

/-- The reads for the roots of rows that assemble succeed. -/
theorem probeRoots_of_assembles {rows : List RawRow} (earlier : List RawRow)
    (h : ∀ row ∈ rows, layout.Assembles row) : layout.probeRoots earlier rows = .ok () := by
  induction rows generalizing earlier with
  | nil => rfl
  | cons row rest ih =>
    have hrow := h row List.mem_cons_self
    obtain ⟨found, hfound⟩ := hrow.key
    have hroot : layout.probeRoot row earlier = .ok () := by
      unfold probeRoot
      rw [hfound, hrow.fields]
      exact ite_self _
    rw [probeRoots, hroot]
    exact ih _ fun r hr => h r (List.mem_cons_of_mem _ hr)

/-- The reads for one relation of rows that pass it succeed. -/
theorem probeRows_of_passes {rows : List RawRow} (earlier : List RawRow)
    (h : ∀ row ∈ rows, layout.Passes row node) : layout.probeRows node earlier rows = .ok () := by
  induction rows generalizing earlier with
  | nil => rfl
  | cons row rest ih =>
    rw [probeRows, probe_of_passes _ node (h row List.mem_cons_self)]
    exact ih _ fun r hr => h r (List.mem_cons_of_mem _ hr)

/-- The reads for several relations of rows that pass them succeed. -/
theorem probeRelations_of_passes {rows : List RawRow} {nodes : List Node}
    (h : ∀ node ∈ nodes, ∀ row ∈ rows, layout.Passes row node) :
    layout.probeRelations rows nodes = .ok () := by
  induction nodes with
  | nil => rfl
  | cons node rest ih =>
    rw [probeRelations, probeRows_of_passes [] (h node List.mem_cons_self)]
    exact ih fun n hn => h n (List.mem_cons_of_mem _ hn)

/-- Rows that can be assembled alone can be assembled together. -/
theorem probeForest_of_assembles {rows : List RawRow} (h : ∀ row ∈ rows, layout.Assembles row) :
    layout.probeForest rows = .ok () := by
  unfold probeForest
  rw [probeRoots_of_assembles [] h]
  exact probeRelations_of_passes fun node hnode row hrow =>
    passesAll_iff.1 (h row hrow).relations node hnode

/-- If the reads for the roots succeed, then the fields of every row can be read for its root. -/
theorem fields_of_probeRoots {earlier rows : List RawRow}
    (halike : ∀ a ∈ earlier ++ rows, ∀ b ∈ earlier ++ rows, layout.Covers a b)
    (hearlier : ∀ e ∈ earlier, layout.check layout.root e = .ok ())
    (h : layout.probeRoots earlier rows = .ok ()) :
    ∀ row ∈ rows, (∃ found, layout.value row layout.root layout.root.model.primaryKey = .ok found) ∧
      layout.check layout.root row = .ok () := by
  induction rows generalizing earlier with
  | nil => exact fun row hrow => absurd hrow List.not_mem_nil
  | cons row rest ih =>
    rw [probeRoots] at h
    obtain ⟨⟨⟩, hroot, h⟩ := bind_eq_ok.1 h
    have hhere :
        (∃ found, layout.value row layout.root layout.root.model.primaryKey = .ok found) ∧
          layout.check layout.root row = .ok () := by
      unfold probeRoot at hroot
      obtain ⟨found, hfound, hroot⟩ := bind_eq_ok.1 hroot
      refine ⟨⟨found, hfound⟩, ?_⟩
      cases hrows : layout.sharingRoot row earlier with
      | nil =>
        rw [hrows] at hroot
        exact hroot
      | cons first others =>
        -- the fields were read from a row with the same columns
        have hmem : first ∈ layout.sharingRoot row earlier := hrows ▸ List.mem_cons_self
        have hfirst : first ∈ earlier := (List.mem_filter.1 hmem).1
        refine (halike first (List.mem_append_left _ hfirst) row (by simp)).fields _ ?_
        exact hearlier first hfirst
    intro r hr
    rcases List.mem_cons.1 hr with rfl | hr
    · exact hhere
    · refine ih ?_ ?_ h r hr
      · simpa [List.append_assoc] using halike
      · intro e he
        rcases List.mem_append.1 he with he | he
        · exact hearlier e he
        · rw [List.mem_singleton.1 he]
          exact hhere.2

/-- If the reads for one relation succeed, then every row passes it. -/
theorem passes_of_probeRows {earlier rows : List RawRow}
    (halike : ∀ a ∈ earlier ++ rows, ∀ b ∈ earlier ++ rows, layout.Covers a b)
    (hearlier : ∀ e ∈ earlier, layout.Passes e node)
    (h : layout.probeRows node earlier rows = .ok ()) : ∀ row ∈ rows, layout.Passes row node := by
  induction rows generalizing earlier with
  | nil => exact fun row hrow => absurd hrow List.not_mem_nil
  | cons row rest ih =>
    rw [probeRows] at h
    obtain ⟨⟨⟩, hprobe, h⟩ := bind_eq_ok.1 h
    have hmem : ∀ e ∈ layout.sharingRoot row earlier, e ∈ earlier := fun e he =>
      (List.mem_filter.1 he).1
    -- the rows of the same root passed already, which carries the induction
    have hhere : layout.Passes row node := passes_of_probe
      (fun e he => halike e (List.mem_append_left _ (hmem e he)) row (by simp)) node
      (fun e he => hearlier e (hmem e he)) hprobe
    intro r hr
    rcases List.mem_cons.1 hr with rfl | hr
    · exact hhere
    · refine ih ?_ ?_ h r hr
      · simpa [List.append_assoc] using halike
      · intro e he
        rcases List.mem_append.1 he with he | he
        · exact hearlier e he
        · rw [List.mem_singleton.1 he]
          exact hhere

/-- If the reads for several relations succeed, then every row passes each of them. -/
theorem passes_of_probeRelations {rows : List RawRow} {nodes : List Node}
    (halike : ∀ a ∈ rows, ∀ b ∈ rows, layout.Covers a b)
    (h : layout.probeRelations rows nodes = .ok ()) :
    ∀ node ∈ nodes, ∀ row ∈ rows, layout.Passes row node := by
  induction nodes with
  | nil => exact fun node hnode => absurd hnode List.not_mem_nil
  | cons node rest ih =>
    rw [probeRelations] at h
    obtain ⟨⟨⟩, hrows, h⟩ := bind_eq_ok.1 h
    intro n hn
    rcases List.mem_cons.1 hn with rfl | hn
    · have hall : ∀ a ∈ [] ++ rows, ∀ b ∈ [] ++ rows, layout.Covers a b := halike
      exact passes_of_probeRows hall (by simp) hrows
    · exact ih h n hn

/-- **Rows with the same columns** can be assembled together when each of them can be assembled
alone. -/
theorem probeForest_eq_ok_iff {rows : List RawRow}
    (halike : ∀ a ∈ rows, ∀ b ∈ rows, layout.Covers a b) :
    layout.probeForest rows = .ok () ↔ ∀ row ∈ rows, layout.Assembles row := by
  refine ⟨fun h row hrow => ?_, probeForest_of_assembles⟩
  unfold probeForest at h
  obtain ⟨⟨⟩, hroots, h⟩ := bind_eq_ok.1 h
  have hall : ∀ a ∈ [] ++ rows, ∀ b ∈ [] ++ rows, layout.Covers a b := halike
  obtain ⟨hkey, hfields⟩ := fields_of_probeRoots hall (by simp) hroots row hrow
  exact ⟨hkey, hfields, passesAll_iff.2 fun node hnode =>
    passes_of_probeRelations halike h node hnode row hrow⟩

/-! ### Rows from which tables can be read -/

/-- Whether the key and the declared fields of a node can be read from a row. -/
structure Readable (layout : Layout) (row : RawRow) (node : Node) : Prop where
  key : ∃ found, layout.value row node node.model.primaryKey = .ok found
  fields : layout.check node row = .ok ()

variable {target : Node} {path : List Node}

/-- A row that passes the reads for the relations of a node passes those for the relations of a
table to which it has all partners on the way. -/
theorem passesAll_of_path (hpath : node.Path path target) (h : layout.PassesAll row node.nested)
    (hpartners : ∀ n ∈ path, layout.hasPartner n row = true) :
    layout.PassesAll row target.nested := by
  induction hpath with
  | here node => exact h
  | @into node next target path hmem hrest ih =>
    have hnext := passesAll_iff.1 h next hmem
    have hpartner := hpartners next List.mem_cons_self
    refine ih ?_ fun n hn => hpartners n (List.mem_cons_of_mem _ hn)
    cases next
    rw [Passes] at hnext
    exact (hnext.2 hpartner).2

mutual

/-- A row passes the reads for a relation when it can be read wherever it has all partners on the
way. -/
theorem passes_of_paths (node : Node) (hhere : layout.Readable row node)
    (h : ∀ path target, node.Path path target → layout.hasPartner node row = true →
      (∀ n ∈ path, layout.hasPartner n row = true) → ∀ next ∈ target.nested,
        layout.Readable row next) : layout.Passes row node := by
  match node with
  | ⟨model, position, nested⟩ =>
    rw [Passes]
    refine ⟨hhere.key, fun hpartner => ⟨hhere.fields, ?_⟩⟩
    refine passesAll_of_paths nested fun next hnext => ?_
    refine ⟨h [] _ (.here _) hpartner (fun n hn => absurd hn List.not_mem_nil) next hnext, ?_⟩
    intro path target hpath hnextPartner hpartners
    refine h (next :: path) target (.into hnext hpath) hpartner fun n hn => ?_
    rcases List.mem_cons.1 hn with rfl | hn
    · exact hnextPartner
    · exact hpartners n hn

/-- A row passes if every table can be read to which its partners lead. -/
theorem passesAll_of_paths (nodes : List Node)
    (h : ∀ node ∈ nodes, layout.Readable row node ∧
      ∀ path target, node.Path path target → layout.hasPartner node row = true →
        (∀ n ∈ path, layout.hasPartner n row = true) → ∀ next ∈ target.nested,
          layout.Readable row next) : layout.PassesAll row nodes := by
  match nodes with
  | [] => trivial
  | node :: rest =>
    rw [PassesAll]
    obtain ⟨hhere, hbelow⟩ := h node List.mem_cons_self
    exact ⟨passes_of_paths node hhere hbelow,
      passesAll_of_paths rest fun n hn => h n (List.mem_cons_of_mem _ hn)⟩

end

/-- A row can be assembled when it can be read for the base table, and for every table to whose
parent it has all partners on the way. -/
theorem assembles_of_paths (hroot : layout.Readable row layout.root)
    (h : ∀ path parent, layout.root.Path path parent →
      (∀ n ∈ path, layout.hasPartner n row = true) → ∀ next ∈ parent.nested,
        layout.Readable row next) : layout.Assembles row := by
  refine ⟨hroot.key, hroot.fields, passesAll_of_paths _ fun node hnode => ?_⟩
  refine ⟨h [] _ (.here _) (fun n hn => absurd hn List.not_mem_nil) node hnode, ?_⟩
  intro path target hpath hpartner hpartners
  refine h (node :: path) target (.into hnode hpath) fun n hn => ?_
  rcases List.mem_cons.1 hn with rfl | hn
  · exact hpartner
  · exact hpartners n hn

/-- A row from which every table can be read can be assembled. -/
theorem assembles_of_readable (h : ∀ n ∈ layout.root.preorder, layout.Readable row n) :
    layout.Assembles row :=
  assembles_of_paths (h _ (Node.mem_preorder_self _)) fun _ _ hpath _ next hnext =>
    h next (hpath.concat hnext).mem_preorder

end Layout

end QueryForest
