import Mathlib.Data.List.Nodup
import QueryForest.Forest.Record
import QueryForest.Proofs.Data.Writes

namespace QueryForest

/-!
# Building a record

A builder takes values for fields one after the other, and the record has them in the order in which
the model declares its fields. Neither the fields that the model does not declare nor a second
declaration of a field leave a trace.

* `RecordBuilder.setAll_ofModel` — a builder has the writes of declared fields;
* `RecordBuilder.build_of_nodup` — sorting by first declarations is looking up every declared field;
* `RecordBuilder.build_setAll` — the record after any sequence of values.
-/

namespace RecordBuilder

variable (m : Model)

/-! ### Setting fields -/

/-- A builder keeps what is set for declared fields, and nothing else. -/
theorem setAll_mk (values entries : List (String × Scalar)) :
    setAll ⟨m, values⟩ entries =
      ⟨m, Assoc.setAll values (entries.filter fun e => m.declares e.1)⟩ := by
  induction entries generalizing values with
  | nil => rfl
  | cons e rest ih =>
    show setAll (set ⟨m, values⟩ e.1 e.2) rest = _
    by_cases h : m.declares e.1 = true
    · have hset : set ⟨m, values⟩ e.1 e.2 = ⟨m, Assoc.set e.1 e.2 values⟩ := if_pos h
      rw [hset, ih, List.filter_cons, if_pos h]
      rfl
    · have hset : set ⟨m, values⟩ e.1 e.2 = ⟨m, values⟩ := if_neg h
      rw [hset, ih, List.filter_cons, if_neg h]

/-- Setting fields is writing those that are declared. -/
theorem setAll_ofModel (entries : List (String × Scalar)) :
    (ofModel m).setAll entries = ⟨m, Assoc.setAll [] (entries.filter fun e => m.declares e.1)⟩ :=
  setAll_mk m [] entries

/-! ### Sorting by declaration -/

variable {m}

/-- Values of different declared fields are sorted into what is found for the declared fields. The
place of a field is that of its first declaration, so that different fields have different places
and there is one order only. -/
theorem build_of_nodup {values : List (String × Scalar)} (hnodup : (values.map Prod.fst).Nodup)
    (hdeclared : ∀ e ∈ values, e.1 ∈ m.fields) :
    build ⟨m, values⟩ = ⟨m, foundEntries (Assoc.get? · values) m.fields, []⟩ := by
  let le (x y : String × Scalar) : Bool := decide (m.fields.idxOf x.1 ≤ m.fields.idxOf y.1)
  let found := foundEntries (Assoc.get? · values) m.fields
  have hmem : ∀ e, e ∈ values ↔ e ∈ found := by
    rintro ⟨name, value⟩
    show _ ↔ (name, value) ∈ foundEntries _ _
    rw [mem_foundEntries]
    constructor
    · intro he
      exact ⟨hdeclared _ he, Assoc.get?_of_mem hnodup he⟩
    · rintro ⟨-, hvalue⟩
      exact Assoc.mem_of_get? hvalue
  -- both lists have the same members, both are sorted by the places of their names, and different
  -- members have different places
  have hvalues : values.Nodup := List.Nodup.of_map _ hnodup
  have hfound : found.Nodup := List.Nodup.of_map _ (names_foundEntries _ m.fields).2
  have hperm : (values.mergeSort le).Perm found :=
    (List.mergeSort_perm values le).trans ((List.perm_ext_iff_of_nodup hvalues hfound).2 hmem)
  have hsorted : (values.mergeSort le).Pairwise fun x y => le x y = true := by
    refine List.pairwise_mergeSort (fun x y z hxy hyz => ?_) (fun x y => ?_) values
    · simp only [le, decide_eq_true_eq] at hxy hyz ⊢
      omega
    · simp only [le, Bool.or_eq_true, decide_eq_true_eq]
      omega
  have hdeclaration : found.Pairwise fun x y => le x y = true :=
    (foundEntries_pairwise_idxOf _ m.fields).imp decide_eq_true
  have hunique : ∀ x y, x ∈ values.mergeSort le → y ∈ found → le x y = true → le y x = true →
      x = y := by
    intro x y hx hy hxy hyx
    have hx' : x ∈ values := (List.mergeSort_perm values le).mem_iff.1 hx
    have hy' : y ∈ values := (hmem y).2 hy
    simp only [le, decide_eq_true_eq] at hxy hyx
    have hname : x.1 = y.1 := (List.idxOf_inj (hdeclared x hx')).1 (by omega)
    exact List.inj_on_of_nodup_map hnodup hx' hy' hname
  show (⟨m, values.mergeSort le, []⟩ : Record) = ⟨m, found, []⟩
  rw [hperm.eq_of_pairwise hunique hsorted hdeclaration]

/-! ### Any sequence of values -/

/-- A built record has the declared fields that were set, each with its last value. -/
theorem build_setAll_eq (m : Model) (entries : List (String × Scalar)) :
    ((ofModel m).setAll entries).build =
      ⟨m, foundEntries (Assoc.last? · entries) m.fields, []⟩ := by
  let kept := entries.filter fun e => m.declares e.1
  have hnames : (Assoc.setAll [] kept).map Prod.fst = (kept.map Prod.fst).eraseDups :=
    Assoc.names_setAll kept
  have hnodup : ((Assoc.setAll [] kept).map Prod.fst).Nodup := hnames ▸ nodup_eraseDups _
  have hdeclared : ∀ e ∈ Assoc.setAll [] kept, e.1 ∈ m.fields := by
    intro e he
    have hname := List.mem_map_of_mem (f := Prod.fst) he
    rw [hnames, List.mem_eraseDups] at hname
    obtain ⟨d, hd, heq⟩ := List.mem_map.1 hname
    have hdeclares : m.declares d.1 = true := (List.mem_filter.1 hd).2
    rw [← heq]
    exact List.contains_iff_mem.1 hdeclares
  rw [setAll_ofModel, build_of_nodup hnodup hdeclared]
  -- what is looked up is declared, so that the writes that were left out are not missed
  have hfound : foundEntries (Assoc.get? · (Assoc.setAll [] kept)) m.fields =
      foundEntries (Assoc.last? · entries) m.fields := by
    refine foundEntries_congr fun name hname => ?_
    have hdeclares : m.declares name = true := List.contains_iff_mem.2 hname
    rw [Assoc.get?_setAll, Assoc.last?_filter, if_pos hdeclares]
  rw [hfound]

/-- **Setting fields in turn.** The record has the distinct declared names that were set, in the
order of their first declarations, each with the value that was set last, and nothing under any
other name. The same values in another order make the same record as long as those for one name
stay in order. -/
theorem build_setAll (m : Model) (entries : List (String × Scalar)) :
    ((ofModel m).setAll entries).build =
        ⟨m, foundEntries (Assoc.last? · entries) m.fields, []⟩ ∧
      ((ofModel m).setAll entries).build.values.map Prod.fst =
        m.fields.eraseDups.filter (entries.map Prod.fst).contains ∧
      (∀ name, ((ofModel m).setAll entries).build.get? name =
        if name ∈ m.fields then Assoc.last? name entries else none) ∧
      ∀ others, Reordered entries others →
        ((ofModel m).setAll others).build = ((ofModel m).setAll entries).build := by
  rw [build_setAll_eq]
  refine ⟨rfl, ?_, fun name => ?_, fun others h => ?_⟩
  · -- a name has a last value if it was set at all
    have hset : (fun name => (Assoc.last? name entries).isSome) =
        (entries.map Prod.fst).contains := by
      funext name
      rw [Bool.eq_iff_iff, Option.isSome_iff_ne_none, List.contains_iff_mem, ne_eq,
        Assoc.last?_eq_none_iff, not_not]
    show (foundEntries _ m.fields).map Prod.fst = _
    rw [map_fst_foundEntries, hset]
  · exact Assoc.get?_foundEntries _ m.fields name
  · rw [build_setAll_eq]
    simp only [h.last?_eq]

end RecordBuilder

namespace Survey

/-- Notes, with a field that is declared twice. -/
def notes : Model := ⟨0, "notes", "id", ["id", "body", "id", "blob"], [], [], []⟩

/-- A note with a field that is set twice and one that is not declared. -/
def noted : List (String × Scalar) :=
  [("body", .text (some "hi")), ("other", .int64 (some 1)), ("id", .int64 (some 4)),
    ("body", .text (some "ho"))]

/-- The same with the key first. -/
def keyedFirst : List (String × Scalar) :=
  [("id", .int64 (some 4)), ("body", .text (some "hi")), ("other", .int64 (some 1)),
    ("body", .text (some "ho"))]

end Survey

/-- Fields that were set twice, in two orders. -/
theorem RecordBuilder.build_setAll_notes : Reordered Survey.noted Survey.keyedFirst ∧
    ((ofModel Survey.notes).setAll Survey.keyedFirst).build =
      ⟨Survey.notes, [("id", .int64 (some 4)), ("body", .text (some "ho"))], []⟩ := by
  have hreordered : Reordered Survey.noted Survey.keyedFirst :=
    (Reordered.cons _ (.swap (by decide) _)).trans (.swap (by decide) _)
  obtain ⟨hbuild, -, -, hsame⟩ := build_setAll Survey.notes Survey.noted
  refine ⟨hreordered, ?_⟩
  rw [hsame _ hreordered, hbuild]
  rfl

end QueryForest
