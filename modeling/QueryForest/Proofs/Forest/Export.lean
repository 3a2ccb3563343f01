import QueryForest.Entity.Fetch
import QueryForest.Forest.Export
import QueryForest.Proofs.Forest.WellFormed
import QueryForest.Proofs.Numeric.Widening
import QueryForest.Proofs.Text.Base64

namespace QueryForest

/-!
# What an exported forest shows

An object of JSON has one member for a name, and a record has two kinds of them: fields and slots.
So the export of a record shows all that it holds exactly where no field is called like a slot; of
two members with one name, the slot is left.

* `Scalar.ShownAs`, `Record.ShownAs` — what the JSON of a value and of a record has to be;
* `NameMap.ofList_perm` — entries with different names are all kept;
* `Record.NamesApart` — whether fields and slots have different names, in a record and in those
  below it;
* `exportForest_shows_iff` — the export of an assembled forest shows all fields and all relations
  exactly where the names are apart;
* `exportForest_shows_of_request` — so it does where no requested model has a field that is called
  like a table asked for below it.
-/

/-! ### The JSON of values -/

namespace Scalar

/-- Whether a JSON value shows a database value. -/
inductive ShownAs : Scalar → Json → Prop
  | null {v : Scalar} (null : v.isNull = true) : ShownAs v .null
  | boolean (b : Bool) : ShownAs (.boolean (some b)) (.bool b)
  | integer {v : Scalar} {n : Int} (value : v.integer? = some n) : ShownAs v (.int n)
  | text {v : Scalar} {s : String} (value : v.text? = some s) : ShownAs v (.string s)
  /-- Bytes are shown as a base64 text. -/
  | binary {bytes : List UInt8} {s : String} (value : Base64.decode s.toList = some bytes) :
    ShownAs (.binary (some bytes)) (.string s)
  /-- A finite number is shown as the same number of 64 bits. -/
  | float {x : Binary32} {y : Binary64} (finite : y.isFinite = true) (value : y.Equals x) :
    ShownAs (.float (some x)) (.float y)
  | double {x : Binary64} (finite : x.isFinite = true) : ShownAs (.double (some x)) (.float x)
  /-- Infinities and patterns that are no numbers are shown as null. -/
  | noFloat {x : Binary32} (infinite : x.isFinite = false) : ShownAs (.float (some x)) .null
  | noDouble {x : Binary64} (infinite : x.isFinite = false) : ShownAs (.double (some x)) .null

/-- **The JSON of a value** shows it. -/
theorem shownAs_toJson (v : Scalar) : v.ShownAs v.toJson := by
  cases v
  case float value =>
    cases value with
    | none => exact .null rfl
    | some x =>
      show ShownAs _ (if (x.convert .double).isFinite then _ else _)
      -- 32 bits are widened before they are shown, and stay the same number if they are one
      by_cases hfinite : x.isFinite = true
      · obtain ⟨hwide, hequals⟩ := Binary.equals_convert hfinite
        rw [if_pos hwide]
        exact .float hwide hequals
      · rw [Bool.not_eq_true] at hfinite
        rw [Binary.not_isFinite_convert hfinite]
        exact .noFloat hfinite
  case double value =>
    cases value with
    | none => exact .null rfl
    | some x =>
      show ShownAs _ (if x.isFinite then _ else _)
      by_cases hfinite : x.isFinite = true
      · rw [if_pos hfinite]
        exact .double hfinite
      · rw [if_neg hfinite]
        exact .noDouble (Bool.eq_false_iff.2 hfinite)
  case boolean value =>
    cases value with
    | none => exact .null rfl
    | some b => exact .boolean b
  case binary value =>
    cases value with
    | none => exact .null rfl
    | some bytes => exact .binary (by rw [String.toList_ofList]; exact Base64.decode_encode bytes)
  -- integers and texts
  all_goals
    next value =>
      cases value with
      | none => exact .null rfl
      | some n => first | exact .integer rfl | exact .text rfl

/-- No value is shown as an array. -/
theorem not_shownAs_array (v : Scalar) (items : List Json) : ¬ v.ShownAs (.array items) := by
  intro h
  cases h

end Scalar

/-! ### The JSON of records -/

mutual

/-- Whether a JSON value shows a record: it is an object with one member for each field and each
slot, and no others. -/
inductive Record.ShownAs : Record → Json → Prop
  | object {r : Record} {members : List (String × Json)}
    (once : (members.map Prod.fst).Nodup)
    (names : ∀ name, name ∈ members.map Prod.fst ↔
      name ∈ r.values.map Prod.fst ∨ name ∈ r.slots.map Prod.fst)
    (fields : ∀ e ∈ r.values, ∃ json, (e.1, json) ∈ members ∧ e.2.ShownAs json)
    (slots : SlotsShownIn r.slots members) : Record.ShownAs r (.object members)

/-- Whether the members of an object have the array of the records of each slot. -/
inductive SlotsShownIn : List (String × List Record) → List (String × Json) → Prop
  | nil {members : List (String × Json)} : SlotsShownIn [] members
  | cons {slot : String} {records : List Record} {rest : List (String × List Record)}
    {items : List Json} {members : List (String × Json)} (mem : (slot, .array items) ∈ members)
    (shown : ForestShownAs records items) (others : SlotsShownIn rest members) :
    SlotsShownIn ((slot, records) :: rest) members

/-- Whether JSON values show records, in order. -/
inductive ForestShownAs : List Record → List Json → Prop
  | nil : ForestShownAs [] []
  | cons {r : Record} {records : List Record} {json : Json} {items : List Json}
    (first : Record.ShownAs r json) (rest : ForestShownAs records items) :
    ForestShownAs (r :: records) (json :: items)

end

namespace Record

/-- Whether no field is called like a slot, in a record and in all records below it. -/
inductive NamesApart : Record → Prop
  | intro {r : Record} (apart : ∀ name ∈ r.values.map Prod.fst, name ∉ r.slots.map Prod.fst)
    (below : ∀ e ∈ r.slots, ∀ child ∈ e.2, NamesApart child) : NamesApart r

/-- Whether each field and each slot has a name of its own among them, in a record and in all
records below it. -/
inductive NamesOnce : Record → Prop
  | intro {r : Record} (fields : (r.values.map Prod.fst).Nodup)
    (slots : (r.slots.map Prod.fst).Nodup)
    (below : ∀ e ∈ r.slots, ∀ child ∈ e.2, NamesOnce child) : NamesOnce r

end Record

/-! ### Names that meet -/

/-- The array of a slot is a member of the object. -/
theorem SlotsShownIn.mem_members {slots : List (String × List Record)}
    {members : List (String × Json)} (h : SlotsShownIn slots members) {slot : String}
    (hslot : slot ∈ slots.map Prod.fst) : ∃ items, (slot, .array items) ∈ members := by
  match h with
  | .nil => cases hslot
  | .cons mem _ others =>
    rcases List.mem_cons.1 hslot with rfl | hslot
    · exact ⟨_, mem⟩
    · exact others.mem_members hslot

mutual

/-- **A record that is shown** by any JSON has fields and slots of different names. -/
theorem Record.ShownAs.namesApart {r : Record} {json : Json} (h : r.ShownAs json) :
    r.NamesApart := by
  match h with
  | .object once names fields slots =>
    refine .intro (fun name hfield hslot => ?_) slots.namesApart
    -- the member with the name would be a value and an array
    obtain ⟨e, he, rfl⟩ := List.mem_map.1 hfield
    obtain ⟨value, hvalue, hshown⟩ := fields e he
    obtain ⟨items, hitems⟩ := slots.mem_members hslot
    have heq : (e.1, value) = (e.1, .array items) :=
      List.inj_on_of_nodup_map once hvalue hitems rfl
    rw [(Prod.mk.inj heq).2] at hshown
    exact e.2.not_shownAs_array items hshown

/-- Where slots are shown, the records below have their names apart. -/
theorem SlotsShownIn.namesApart {slots : List (String × List Record)}
    {members : List (String × Json)} (h : SlotsShownIn slots members) :
    ∀ e ∈ slots, ∀ child ∈ e.2, child.NamesApart := by
  match h with
  | .nil => simp
  | .cons _ shown others =>
    exact List.forall_mem_cons.2 ⟨shown.namesApart, others.namesApart⟩

/-- Records that are shown have their names apart. -/
theorem ForestShownAs.namesApart {forest : List Record} {items : List Json}
    (h : ForestShownAs forest items) : ∀ r ∈ forest, r.NamesApart := by
  match h with
  | .nil => simp
  | .cons first rest => exact List.forall_mem_cons.2 ⟨first.namesApart, rest.namesApart⟩

end

/-! ### Names that are apart -/

namespace NameMap

universe u

variable {α : Type u}

/-- A new name only adds its entry. -/
theorem place_perm {name : String} {value : α} {entries : List (String × α)}
    (h : name ∉ entries.map Prod.fst) :
    (place name value entries).Perm ((name, value) :: entries) := by
  induction entries with
  | nil => exact .refl _
  | cons e rest ih =>
    obtain ⟨n, v⟩ := e
    rw [List.map_cons, List.mem_cons, not_or] at h
    unfold place
    by_cases hlt : name < n
    · rw [if_pos hlt]
    · rw [if_neg hlt, if_neg fun heq => h.1 heq.symm]
      exact ((ih h.2).cons _).trans (.swap _ _ _)

/-- **Entries with different names** are all kept, and nothing else is. -/
theorem ofList_perm {entries : List (String × α)} (h : (entries.map Prod.fst).Nodup) :
    (ofList entries).toList.Perm entries := by
  induction entries using List.reverseRecOn with
  | nil => exact .refl _
  | append_singleton entries e ih =>
    rw [List.map_append, List.nodup_append] at h
    have hprevious := ih h.1
    have hnew : e.1 ∉ (ofList entries).toList.map Prod.fst := by
      intro hmem
      exact h.2.2 _ ((hprevious.map Prod.fst).mem_iff.1 hmem) _ List.mem_cons_self rfl
    have hlast : (ofList (entries ++ [e])).toList = place e.1 e.2 (ofList entries).toList := by
      unfold ofList
      rw [List.foldl_append]
      rfl
    rw [hlast]
    exact ((place_perm hnew).trans (hprevious.cons _)).trans
      (List.perm_append_singleton e entries).symm

end NameMap

namespace Record

/-- A slot is exported under its name. -/
theorem names_slotsJson (slots : List (String × List Record)) :
    (slotsJson slots).map Prod.fst = slots.map Prod.fst := by
  induction slots with
  | nil => rw [slotsJson]; rfl
  | cons e rest ih => rw [slotsJson, List.map_cons, ih]; rfl

/-- The members for the fields and slots of a record. -/
def members (r : Record) : List (String × Json) :=
  r.values.map (fun e => (e.1, e.2.toJson)) ++ slotsJson r.slots

/-- The members of an exported record are called like its fields and its slots. -/
theorem names_members (r : Record) :
    r.members.map Prod.fst = r.values.map Prod.fst ++ r.slots.map Prod.fst := by
  unfold members
  rw [List.map_append, List.map_map, names_slotsJson]
  rfl

/-- A record is exported as the object with its members, of which the last one of a name stays. -/
theorem toJson_eq (r : Record) : r.toJson = .object (NameMap.ofList r.members).toList := by
  cases r
  rw [toJson]
  rfl

mutual

/-- **The JSON of a record** shows it, where all its names are different. -/
theorem shownAs_toJson (r : Record) (hapart : r.NamesApart) (honce : r.NamesOnce) :
    r.ShownAs r.toJson := by
  match r, hapart, honce with
  | ⟨model, values, slots⟩, .intro apart belowApart, .intro fieldsOnce slotsOnce belowOnce =>
    have hnodup : (members ⟨model, values, slots⟩).map Prod.fst |>.Nodup := by
      rw [names_members]
      exact List.nodup_append.2 ⟨fieldsOnce, slotsOnce, fun a ha b hb heq => apart a ha (heq ▸ hb)⟩
    -- no member is written over another, so the object has them all
    have hperm := NameMap.ofList_perm hnodup
    have hnames := hperm.map Prod.fst
    rw [toJson_eq]
    refine .object (hnames.nodup_iff.2 hnodup) (fun name => ?_) (fun e he => ?_) ?_
    · rw [hnames.mem_iff, names_members, List.mem_append]
    · refine ⟨e.2.toJson, hperm.mem_iff.2 (List.mem_append_left _ ?_), e.2.shownAs_toJson⟩
      exact List.mem_map_of_mem he
    · exact slotsShownIn_slotsJson slots _ belowApart belowOnce fun e he =>
        hperm.mem_iff.2 (List.mem_append_right _ he)

/-- The slots are shown by any members that have them. -/
theorem slotsShownIn_slotsJson (slots : List (String × List Record))
    (members : List (String × Json)) (hapart : ∀ e ∈ slots, ∀ child ∈ e.2, child.NamesApart)
    (honce : ∀ e ∈ slots, ∀ child ∈ e.2, child.NamesOnce)
    (hmembers : ∀ e ∈ slotsJson slots, e ∈ members) : SlotsShownIn slots members := by
  match slots with
  | [] => exact .nil
  | (name, records) :: rest =>
    rw [List.forall_mem_cons] at hapart honce
    rw [slotsJson, List.forall_mem_cons] at hmembers
    exact .cons hmembers.1 (forestShownAs_forestJson records hapart.1 honce.1)
      (slotsShownIn_slotsJson rest members hapart.2 honce.2 hmembers.2)

/-- Records are exported in their order. -/
theorem forestShownAs_forestJson (records : List Record) (hapart : ∀ r ∈ records, r.NamesApart)
    (honce : ∀ r ∈ records, r.NamesOnce) : ForestShownAs records (forestJson records) := by
  match records with
  | [] =>
    rw [forestJson]
    exact .nil
  | r :: rest =>
    rw [List.forall_mem_cons] at hapart honce
    rw [forestJson]
    exact .cons (shownAs_toJson r hapart.1 honce.1)
      (forestShownAs_forestJson rest hapart.2 honce.2)

end

/-! ### Assembled forests -/

/-- What it takes for a record to be well-formed below, relation by relation. -/
theorem wellFormedBelow_iff (joins : List Join) (r : Record) : r.WellFormedBelow joins ↔
    ∀ join ∈ joins, ∃ records, r.related? join.model.table = some records ∧ KeysApart records ∧
      ∀ child ∈ records, child.Keyed ∧ child.WellFormed join := by
  induction joins with
  | nil => simp [WellFormedBelow]
  | cons join rest ih => rw [WellFormedBelow, ih, List.forall_mem_cons]

/-- The slots of a record have different names. -/
theorem IsOf.nodup_slots {model : Model} {relations : List String} {r : Record}
    (h : r.IsOf model relations) : (r.slots.map Prod.fst).Nodup :=
  h.slots_eq ▸ h.slots_nodup

/-- A well-formed record is of its model, with a slot for each relation. -/
theorem WellFormed.isOf {model : Model} {nested : List Join} {r : Record}
    (h : r.WellFormed ⟨model, nested⟩) : r.IsOf model (nested.map (·.model.table)) := by
  rw [WellFormed] at h
  exact h.1

/-- The records of a slot are well formed for a request below that of the record. -/
theorem exists_wellFormed_of_slot {model : Model} {nested : List Join} {r : Record}
    (h : r.WellFormed ⟨model, nested⟩) {e : String × List Record} (he : e ∈ r.slots) :
    ∃ join ∈ nested, ∀ child ∈ e.2, child.WellFormed join := by
  rw [WellFormed, wellFormedBelow_iff] at h
  obtain ⟨hisOf, hbelow⟩ := h
  have hslot : e.1 ∈ nested.map (·.model.table) := hisOf.slots_eq ▸ List.mem_map_of_mem he
  obtain ⟨join, hjoin, htable⟩ := List.mem_map.1 hslot
  obtain ⟨records, hrecords, -, hchildren⟩ := hbelow join hjoin
  refine ⟨join, hjoin, fun child hchild => (hchildren child ?_).2⟩
  -- the slots have different names, so the one that is found is this one
  have hmem := Assoc.mem_of_get? hrecords
  rw [htable] at hmem
  have heq := List.inj_on_of_nodup_map hisOf.nodup_slots hmem he rfl
  rw [← heq] at hchild
  exact hchild

/-- In a well formed record, fields and slots have names of their own. -/
theorem namesOnce_of_wellFormed (join : Join) {r : Record} (h : r.WellFormed join) :
    r.NamesOnce := by
  match join with
  | ⟨model, nested⟩ =>
    refine .intro h.isOf.fields_nodup h.isOf.nodup_slots fun e he child hchild => ?_
    obtain ⟨below, hbelow, hchildren⟩ := exists_wellFormed_of_slot h he
    have hsmaller := List.sizeOf_lt_of_mem hbelow
    exact namesOnce_of_wellFormed below (hchildren child hchild)
termination_by sizeOf join
decreasing_by
  simp only [Join.mk.sizeOf_spec]
  omega

end Record

/-- Whether no field of a requested model is called like a table that is asked for below it, and so
for the models below it. -/
inductive Join.NamesApart : Join → Prop
  | intro {join : Join}
    (apart : ∀ field ∈ join.model.fields, field ∉ join.nested.map (·.model.table))
    (below : ∀ next ∈ join.nested, NamesApart next) : NamesApart join

/-- Where the names of a request are apart, so are those of its records, whatever rows they are read
from. -/
theorem Record.namesApart_of_wellFormed {join : Join} (hjoin : join.NamesApart) {r : Record}
    (h : r.WellFormed join) : r.NamesApart := by
  induction hjoin generalizing r with
  | @intro join apart below ih =>
    obtain ⟨model, nested⟩ := join
    refine .intro (fun name hname => ?_) fun e he child hchild => ?_
    · rw [h.isOf.slots_eq]
      exact apart name (h.isOf.declared.subset hname)
    · obtain ⟨next, hnext, hchildren⟩ := exists_wellFormed_of_slot h he
      exact ih next hnext (hchildren child hchild)

/-- **What an exported forest shows.** The export of an assembled forest is an array that shows its
roots in order, each with all its fields, all its slots and nothing else, and so the records below
it, exactly where no field of any record is called like one of the record's slots. -/
theorem exportForest_shows_iff {base : Model} {joins : List Join} {rows : List RawRow}
    {forest : List Record} (h : assemble base joins rows = .ok forest) :
    (∃ items, exportForest forest = .array items ∧ ForestShownAs forest items) ↔
      ∀ r ∈ forest, r.NamesApart := by
  constructor
  · rintro ⟨items, -, hshown⟩
    exact hshown.namesApart
  · intro hapart
    refine ⟨Record.forestJson forest, rfl, ?_⟩
    exact Record.forestShownAs_forestJson forest hapart fun r hr =>
      Record.namesOnce_of_wellFormed _ ((wellFormed_of_assemble h).1 r hr)

/-- Where no model of a request has a field that is called like a table asked for below it, the
export of an assembled forest shows all of it. -/
theorem exportForest_shows_of_request {base : Model} {joins : List Join} {rows : List RawRow}
    {forest : List Record} (h : assemble base joins rows = .ok forest)
    (hrequest : Join.NamesApart ⟨base, joins⟩) :
    ∃ items, exportForest forest = .array items ∧ ForestShownAs forest items := by
  refine (exportForest_shows_iff h).2 fun r hr => ?_
  exact Record.namesApart_of_wellFormed hrequest ((wellFormed_of_assemble h).1 r hr)

namespace Survey

/-- No field of the survey is called like a table below it. -/
theorem namesApart_joins : Join.NamesApart ⟨exercises, joins⟩ := by
  refine .intro (by decide) fun next hnext => ?_
  rw [List.mem_singleton.1 hnext]
  refine .intro (by decide) fun next hnext => ?_
  rw [List.mem_singleton.1 hnext]
  exact .intro (by decide) (by simp)

end Survey

/-- Exercises with their questions and responses. -/
theorem exportForest_shows_iff_survey :
    assemble Survey.exercises Survey.joins Survey.arrivals = .ok Survey.collected ∧
      ∃ items, exportForest Survey.collected = .array items ∧
        ForestShownAs Survey.collected items := by
  have hrun : assemble Survey.exercises Survey.joins Survey.arrivals = .ok Survey.collected := by
    cbv
  refine ⟨hrun, (exportForest_shows_iff hrun).2 fun r hr => ?_⟩
  exact Record.namesApart_of_wellFormed Survey.namesApart_joins
    ((wellFormed_of_assemble hrun).1 r hr)

namespace Journal

/-- Comments, whose reference to a post is called like the table of the posts. -/
def comments : Model := ⟨0, "comments", "id", ["id", "posts"], [], [], [⟨1, "posts"⟩]⟩

/-- Posts. -/
def posts : Model := ⟨1, "posts", "id", ["id", "title"], [], [], []⟩

/-- A row of a comment with its post. -/
def row : RawRow :=
  Row.fetch .named ⟨[("id", .int64 (some 7)), ("posts", .int64 (some 1)), ("id", .int64 (some 1)),
    ("title", .text (some "A"))]⟩

/-- The comment with its post. -/
def comment : Record :=
  ⟨comments, [("id", .int64 (some 7)), ("posts", .int64 (some 1))],
    [("posts", [⟨posts, [("id", .int64 (some 1)), ("title", .text (some "A"))], []⟩])]⟩

end Journal

/-- The field of a comment that is called like its slot is lost in the export. -/
theorem not_exportForest_shows_journal :
    assemble Journal.comments [⟨Journal.posts, []⟩] [Journal.row] = .ok [Journal.comment] ∧
      Journal.comment.get? "posts" = some (.int64 (some 1)) ∧
      exportForest [Journal.comment] =
        .array [.object [("id", .int 7),
          ("posts", .array [.object [("id", .int 1), ("title", .string "A")]])]] ∧
      ¬ ∃ items, exportForest [Journal.comment] = .array items ∧
        ForestShownAs [Journal.comment] items := by
  have hrun : assemble Journal.comments [⟨Journal.posts, []⟩] [Journal.row] =
      .ok [Journal.comment] := by
    cbv
  refine ⟨hrun, rfl, by cbv, ?_⟩
  rintro ⟨items, -, hshown⟩
  -- the comment has a field and a slot of one name
  obtain ⟨apart, -⟩ := hshown.namesApart Journal.comment (List.mem_singleton.2 rfl)
  exact apart "posts" (by decide) (by decide)

end QueryForest
