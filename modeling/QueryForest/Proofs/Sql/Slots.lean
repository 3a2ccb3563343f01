import QueryForest.Proofs.Data.Step
import QueryForest.Proofs.Sql.Marks

namespace QueryForest

namespace Sql

/-!
# The open marks of a statement

To the database a question mark is a placeholder unless it stands in an identifier between double
quotes. Such a mark is open.

* `openMarks` — how many open marks a text has;
* `Quiet q text r` — a text without open marks, where `q` and `r` tell whether an identifier is
  open in front of it and behind it; a `Closed` text has neither;
* `Slot` and `Reads text slots` — what stands in front of each open mark of a text, from left to
  right, and what the mark is to be bound to;
* `Fragment.Fits` and `Query.Binds` — a fragment whose values, and a query whose parameters, are
  those of its slots.
-/

/-- The number of question marks outside double quotes. -/
def openMarks (quoted : Bool) : List Char → Nat
  | [] => 0
  | c :: cs =>
    if c = '"' then openMarks (!quoted) cs
    else if c = '?' ∧ quoted = false then openMarks quoted cs + 1
    else openMarks quoted cs

/-- Whether a double quote is still open behind a text. -/
def quotedAfter (quoted : Bool) : List Char → Bool
  | [] => quoted
  | c :: cs => quotedAfter (if c = '"' then !quoted else quoted) cs

/-- The open marks of two texts add up, the second being read as the first one leaves off. -/
theorem openMarks_append (q : Bool) (a b : List Char) :
    openMarks q (a ++ b) = openMarks q a + openMarks (quotedAfter q a) b := by
  induction a generalizing q with
  | nil =>
    rw [List.nil_append, openMarks, Nat.zero_add]
    rfl
  | cons c a ih =>
    rw [List.cons_append, openMarks, openMarks, quotedAfter]
    split
    · rw [ih]
    · split
      · rw [ih, Nat.add_right_comm]
      · rw [ih]

theorem quotedAfter_append (q : Bool) (a b : List Char) :
    quotedAfter q (a ++ b) = quotedAfter (quotedAfter q a) b := by
  induction a generalizing q with
  | nil => rfl
  | cons c a ih => exact ih _

/-! ### Text without open marks -/

/-- No open mark in a text; whether a quote is open in front of it and behind it. -/
structure Quiet (q : Bool) (text : List Char) (r : Bool) : Prop where
  marks : openMarks q text = 0
  ends : quotedAfter q text = r

/-- No open mark and no identifier that is cut. -/
abbrev Closed (text : List Char) : Prop := Quiet false text false

/-- Two texts without open marks are one text without open marks. -/
theorem Quiet.append {q r s : Bool} {a b : List Char} (ha : Quiet q a r) (hb : Quiet r b s) :
    Quiet q (a ++ b) s where
  marks := by rw [openMarks_append, ha.marks, ha.ends, hb.marks]
  ends := by rw [quotedAfter_append, ha.ends, hb.ends]

theorem closed_nil : Closed [] := ⟨rfl, rfl⟩

/-- A bare text has no open mark and cuts no identifier. -/
theorem closed_bare {text : List Char} (h : Bare text) : Closed text := by
  induction text with
  | nil => exact closed_nil
  | cons c text ih =>
    obtain ⟨hmark, hclosing⟩ := h c List.mem_cons_self
    have hquote : c ≠ '"' := by
      rintro rfl
      cases hclosing
    have hc : Closed [c] := by
      constructor
      · simp [openMarks, hmark]
      · simp [quotedAfter, hquote]
    exact hc.append (ih fun d hd => h d (List.mem_cons_of_mem c hd))

/-- Doubled quotes do not end the identifier they stand in. -/
theorem quiet_doubleQuotes (name : List Char) : Quiet true (doubleQuotes name) true := by
  induction name with
  | nil => exact ⟨rfl, rfl⟩
  | cons c name ih =>
    have hc : Quiet true (if c = '"' then ['"', '"'] else [c]) true := by
      split
      · exact ⟨rfl, rfl⟩
      · next hquote =>
        constructor
        · simp [openMarks, hquote]
        · simp [quotedAfter, hquote]
    exact hc.append ih

/-- A quoted name has no open mark, whatever the name is. -/
theorem closed_quoteName (name : List Char) : Closed (quoteName name) := by
  have hopen : Quiet false ['"'] true := ⟨rfl, rfl⟩
  have hclose : Quiet true ['"'] false := ⟨rfl, rfl⟩
  exact (hopen.append (quiet_doubleQuotes name)).append hclose

/-- Closed texts with a closed separator between them are closed. -/
theorem closed_intercalate {sep : List Char} (hsep : Closed sep) {texts : List (List Char)}
    (h : ∀ text ∈ texts, Closed text) : Closed (List.intercalate sep texts) := by
  induction texts with
  | nil => exact closed_nil
  | cons text rest ih =>
    have htext := h text List.mem_cons_self
    have hrest := ih fun t ht => h t (List.mem_cons_of_mem text ht)
    cases rest with
    | nil => simpa using htext
    | cons next rest =>
      rw [List.intercalate_cons_cons]
      exact (htext.append hsep).append hrest

/-- Closed texts one behind the other are closed. -/
theorem closed_flatMap {α : Type} {f : α → List Char} {items : List α}
    (h : ∀ a ∈ items, Closed (f a)) : Closed (items.flatMap f) := by
  induction items with
  | nil => exact closed_nil
  | cons a rest ih =>
    rw [List.flatMap_cons]
    exact (h a List.mem_cons_self).append (ih fun b hb => h b (List.mem_cons_of_mem a hb))

/-- A quoted path has no open mark, whatever the path is. -/
theorem closed_quotePath (path : List Char) : Closed (quotePath path) := by
  refine closed_intercalate (closed_bare (by decide)) fun text htext => ?_
  obtain ⟨piece, -, rfl⟩ := List.mem_map.mp htext
  unfold quotePiece
  split
  · exact closed_bare (by decide)
  · exact closed_quoteName piece

/-- The text of a column has no open mark. -/
theorem ColumnReference.closed_text (column : ColumnReference) : Closed column.text := by
  cases column with
  | all => exact closed_bare (by decide)
  | everyOf table => exact (closed_quoteName table).append (closed_bare (by decide))
  | bare name => exact closed_quoteName name
  | qualified table column =>
    have hdot : Closed ['.'] := closed_bare (by decide)
    exact (closed_quoteName table).append (hdot.append (closed_quoteName column))

/-! ### What the open marks stand for -/

/-- The text in front of a placeholder and the value it is to be bound to, if it has one. -/
structure Slot where
  lead : List Char
  bound : Except ConfigurationError Scalar

/-- The open marks of a text, from left to right: the text in front of each of them ends in the
lead of its slot. -/
inductive Reads : List Char → List Slot → Prop
  /-- Behind the last open mark. -/
  | done {text : List Char} (htext : Closed text) : Reads text []
  /-- Up to the next open mark. -/
  | mark {before rest : List Char} {slot : Slot} {slots : List Slot} (hbefore : Closed before)
      (hlead : Closed slot.lead) (hrest : Reads rest slots) :
      Reads (before ++ slot.lead ++ '?' :: rest) (slot :: slots)

/-- The open marks of two texts are those of the first and then those of the second. -/
theorem Reads.append {a b : List Char} {x y : List Slot} (ha : Reads a x) (hb : Reads b y) :
    Reads (a ++ b) (x ++ y) := by
  induction ha with
  | done ha =>
    cases hb with
    | done hb => exact .done (ha.append hb)
    | mark hbefore hlead hrest =>
      rw [← List.append_assoc, ← List.append_assoc]
      exact .mark (ha.append hbefore) hlead hrest
  | mark hbefore hlead _ ih =>
    rw [List.append_assoc]
    exact .mark hbefore hlead ih

/-- There are as many open marks as slots. -/
theorem Reads.openMarks_eq {text : List Char} {slots : List Slot} (h : Reads text slots) :
    openMarks false text = slots.length := by
  induction h with
  | done htext => exact htext.marks
  | mark hbefore hlead _ ih =>
    have hfront := hbefore.append hlead
    rw [openMarks_append, hfront.marks, hfront.ends, openMarks, if_neg (by decide),
      if_pos ⟨rfl, rfl⟩, ih, Nat.zero_add]
    rfl

/-- A mark with its lead. -/
theorem reads_mark (slot : Slot) (h : Closed slot.lead) : Reads (slot.lead ++ ['?']) [slot] :=
  .mark closed_nil h (.done closed_nil)

/-! ### Fragments and queries -/

/-- A fragment whose values are those of the slots of its text. -/
structure Fragment.Fits (a : Fragment) (slots : List Slot) : Prop where
  reads : Reads a.text slots
  bound : a.values.map BindValue.toScalar = slots.map Slot.bound

namespace Fragment

/-- A closed text without values has no slots. -/
theorem fits_ofText {text : List Char} (h : Closed text) : (ofText text).Fits [] := ⟨.done h, rfl⟩

/-- The slots of two fragments stand one behind the other, as their values do. -/
theorem Fits.append {a b : Fragment} {x y : List Slot} (ha : a.Fits x) (hb : b.Fits y) :
    (a ++ b).Fits (x ++ y) where
  reads := ha.reads.append hb.reads
  bound := by rw [values_append, List.map_append, List.map_append, ha.bound, hb.bound]

theorem append_assoc (a b c : Fragment) : a ++ b ++ c = a ++ (b ++ c) := by
  show Fragment.mk (a.text ++ b.text ++ c.text) (a.values ++ b.values ++ c.values) = _
  rw [List.append_assoc, List.append_assoc]
  rfl

theorem ofText_append (a b : List Char) : ofText (a ++ b) = ofText a ++ ofText b := rfl

theorem append_ofText_nil (a : Fragment) : a ++ ofText [] = a := by
  show Fragment.mk (a.text ++ []) (a.values ++ []) = a
  rw [List.append_nil, List.append_nil]

/-- A placeholder behind the text that tells what it is for. -/
theorem fits_parameter {lead : List Char} (h : Closed lead) (value : BindValue) :
    (ofText lead ++ parameter value).Fits [⟨lead, value.toScalar⟩] where
  reads := reads_mark ⟨lead, value.toScalar⟩ h
  bound := rfl

/-- A list of fragments with one slot each. -/
theorem fits_joinWith {α : Type} {separator : String} (hsep : Closed separator.toList)
    {f : α → Fragment} {slot : α → Slot} (h : ∀ a, (f a).Fits [slot a]) (items : List α) :
    (joinWith separator (items.map f)).Fits (items.map slot) := by
  induction items with
  | nil => exact fits_ofText closed_nil
  | cons a rest ih =>
    cases rest with
    | nil => exact h a
    | cons next rest => exact ((h a).append (fits_ofText hsep)).append ih

end Fragment

end Sql

/-- **A query that binds slots.** It has as many parameters as open marks; from left to right the
marks are those of the slots, and each parameter is what its slot is to be bound to. -/
structure Query.Binds (q : Query) (slots : List Sql.Slot) : Prop where
  marks : Sql.openMarks false q.sql.toList = q.params.length
  reads : Sql.Reads q.sql.toList slots
  params : List.Forall₂ (fun slot param => slot.bound = .ok param) slots q.params

/-- A value is sent exactly if it has a database value. -/
theorem BindValue.toScalar_eq_ok {value : BindValue} {scalar : Scalar} :
    value.toScalar = .ok scalar ↔ value.toScalar? = some scalar := by
  unfold toScalar
  cases value.toScalar? <;> simp

/-- Values are sent if the first one is and the others are. -/
theorem scalarsOf_cons {value : BindValue} {rest : List BindValue} {params : List Scalar}
    (h : scalarsOf (value :: rest) = .ok params) :
    ∃ param others, value.toScalar = .ok param ∧ scalarsOf rest = .ok others ∧
      params = param :: others := by
  obtain ⟨param, others, hparam, hothers, rfl⟩ := List.forall₂_cons_left_iff.1 (mapM_eq_ok.1 h)
  exact ⟨param, others, hparam, mapM_eq_ok.2 hothers, rfl⟩

/-- Each database value is that of the bind value at its place. -/
theorem scalarsOf_eq_ok_iff {values : List BindValue} {params : List Scalar} :
    scalarsOf values = .ok params ↔
      List.Forall₂ (fun value param => value.toScalar = .ok param) values params :=
  mapM_eq_ok

/-- The parameter at a place is the database value of the value at that place. -/
theorem getElem?_of_scalarsOf {values : List BindValue} {params : List Scalar}
    (h : scalarsOf values = .ok params) {i : Nat} {value : BindValue}
    (hi : values[i]? = some value) :
    ∃ param, params[i]? = some param ∧ value.toScalar? = some param := by
  induction values generalizing params i with
  | nil => cases hi
  | cons first rest ih =>
    obtain ⟨param, others, hfirst, hrest, rfl⟩ := scalarsOf_cons h
    cases i with
    | zero =>
      cases hi
      exact ⟨param, rfl, BindValue.toScalar_eq_ok.1 hfirst⟩
    | succ i => exact ih hrest hi

/-- A fragment that fits slots gives a query that binds them. -/
theorem Sql.Fragment.Fits.binds {a : Sql.Fragment} {slots : List Sql.Slot} (h : a.Fits slots)
    {q : Query} (hq : a.toQuery = .ok q) : q.Binds slots := by
  unfold Sql.Fragment.toQuery at hq
  cases hparams : scalarsOf a.values with
  | error cause =>
    rw [hparams] at hq
    cases hq
  | ok params =>
    rw [hparams] at hq
    cases hq
    -- the parameters are those of the values, and the slots have the same values
    have hbound : List.Forall₂ (fun slot param => slot.bound = .ok param) slots params := by
      have hvalues : List.Forall₂ (fun result param => result = .ok param)
          (a.values.map BindValue.toScalar) params :=
        List.forall₂_map_left_iff.2 (scalarsOf_eq_ok_iff.1 hparams)
      rw [h.bound] at hvalues
      exact List.forall₂_map_left_iff.1 hvalues
    have hreads : Sql.Reads (String.ofList a.text).toList slots := by
      rw [String.toList_ofList]
      exact h.reads
    exact ⟨hreads.openMarks_eq.trans hbound.length_eq, hreads, hbound⟩

end QueryForest
