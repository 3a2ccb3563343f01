import Mathlib.Algebra.Ring.Int.Defs
import Mathlib.Algebra.Ring.Nat
import QueryForest.Proofs.Statement.Calls
import QueryForest.Store.Value

namespace QueryForest

/-!
# Limits and offsets

The numbers of rows of a selection are unsigned, and the store binds them as signed integers of 64
bits. A number from `2 ^ 63` on wraps around to a negative one, which the store takes for no limit,
as it should, but for no offset either.

* `Select.page` — the rows that a selection means, and `storePage` those that the store gives;
* `Select.storePage_sent` — a limit is right at any magnitude, an offset up to the largest integer
  of the store;
* `Query.PagedAs` — a query with integers bound for its limit and its offset;
* `Select.page_iff` — when the store gives the rows that a selection means.
-/

/-! ### Pages of rows -/

/-- At most a number of rows. -/
def atMost {α : Type} (limit : Option UInt64) (rows : List α) : List α :=
  match limit with
  | some count => rows.take count.toNat
  | none => rows

/-- The rows that are left of a result: first a number of them is skipped, then at most so many are
kept. -/
def Select.page {α : Type} (s : Select) (rows : List α) : List α :=
  atMost s.maxRows (rows.drop ((s.skippedRows.map UInt64.toNat).getD 0))

/-- The rows that the store gives for integers bound as limit and offset: a negative limit is none,
and a negative offset is zero. -/
def storePage {α : Type} (limit offset : Option Int64) (rows : List α) : List α :=
  let rest := rows.drop ((offset.map fun n => n.toInt.toNat).getD 0)
  match limit with
  | some count => if count.toInt < 0 then rest else rest.take count.toInt.toNat
  | none => rest

/-- A number of 64 bits as a signed one: from `2 ^ 63` on it is negative. -/
theorem toInt_toInt64 (n : UInt64) :
    n.toInt64.toInt = if n.toNat < 2 ^ 63 then (n.toNat : Int) else n.toNat - 2 ^ 64 := by
  have hcond := BitVec.toInt_eq_toNat_cond n.toBitVec
  show n.toBitVec.toInt = _
  rw [hcond]
  show (if 2 * n.toNat < 2 ^ 64 then (n.toNat : Int) else n.toNat - ((2 ^ 64 : Nat) : Int)) = _
  split <;> split <;> omega

/-- An offset that wraps around is none. -/
theorem toNat_toInt64 (n : UInt64) :
    n.toInt64.toInt.toNat = if n.toNat < 2 ^ 63 then n.toNat else 0 := by
  have hsize := n.toNat_lt
  rw [toInt_toInt64]
  split <;> omega

section Pages

variable {α : Type} {rows : List α}

/-- A limit that wraps around is none, and there are fewer rows than it asks for. -/
theorem take_toInt64 (count : UInt64) (h : rows.length < 2 ^ 63) :
    (if count.toInt64.toInt < 0 then rows else rows.take count.toInt64.toInt.toNat) =
      rows.take count.toNat := by
  have hsize := count.toNat_lt
  rw [toInt_toInt64]
  by_cases hcount : count.toNat < 2 ^ 63
  · rw [if_pos hcount, if_neg (by omega), Int.toNat_natCast]
  · rw [if_neg hcount, if_pos (by omega), List.take_of_length_le (by omega)]

namespace Select

/-- The limit that stands for none is more than there can be rows. -/
theorem atMost_sentLimit (s : Select) (h : rows.length < 2 ^ 63) :
    atMost s.sentLimit rows = atMost s.maxRows rows := by
  unfold sentLimit
  cases s.maxRows with
  | some count => rfl
  | none =>
    cases s.skippedRows with
    | none => rfl
    | some count =>
      have hunbounded : unbounded.toNat = 2 ^ 63 - 1 := by decide
      show rows.take unbounded.toNat = rows
      exact List.take_of_length_le (by omega)

/-- The store keeps as many rows as the selection means, behind those that it skips. -/
theorem storePage_sent (s : Select) (h : rows.length < 2 ^ 63) :
    storePage (s.sentLimit.map UInt64.toInt64) (s.skippedRows.map UInt64.toInt64) rows =
      atMost s.maxRows (rows.drop
        ((s.skippedRows.map fun n => if n.toNat < 2 ^ 63 then n.toNat else 0).getD 0)) := by
  have hoffset : ((s.skippedRows.map UInt64.toInt64).map fun n => n.toInt.toNat) =
      s.skippedRows.map fun n => if n.toNat < 2 ^ 63 then n.toNat else 0 := by
    rw [Option.map_map]
    exact congrArg (Option.map · s.skippedRows) (funext toNat_toInt64)
  unfold storePage
  rw [hoffset]
  -- the limit is applied behind the offset, to no more rows than there are
  generalize hrest : rows.drop _ = rest
  have hlength : rest.length < 2 ^ 63 := by
    rw [← hrest, List.length_drop]
    omega
  rw [← s.atMost_sentLimit hlength]
  cases s.sentLimit with
  | none => rfl
  | some count => exact take_toInt64 count hlength

/-- The store gives the rows that a selection means, unless its offset wraps around and there are
rows that it does not leave out for another reason. -/
theorem storePage_eq_iff (s : Select) (h : rows.length < 2 ^ 63) :
    storePage (s.sentLimit.map UInt64.toInt64) (s.skippedRows.map UInt64.toInt64) rows =
        s.page rows ↔
      (∀ n, s.skippedRows = some n → n.toNat < 2 ^ 63) ∨ s.maxRows = some 0 ∨ rows = [] := by
  rw [storePage_sent s h, page]
  cases s.skippedRows with
  | none => exact iff_of_true rfl (.inl fun n hn => nomatch hn)
  | some n =>
    have hsmall : (∀ m, some n = some m → m.toNat < 2 ^ 63) ↔ n.toNat < 2 ^ 63 :=
      ⟨fun hall => hall n rfl, fun hn m hm => Option.some.inj hm ▸ hn⟩
    rw [hsmall, Option.map_some, Option.map_some, Option.getD_some, Option.getD_some]
    by_cases hn : n.toNat < 2 ^ 63
    · rw [if_pos hn]
      exact iff_of_true rfl (.inl hn)
    · -- all rows are skipped but the store skips none
      have hnone : rows.drop n.toNat = [] := List.drop_of_length_le (by omega)
      have hempty : atMost s.maxRows ([] : List α) = [] := by
        cases s.maxRows <;> simp [atMost]
      rw [if_neg hn, List.drop_zero, hnone, hempty, or_iff_right hn]
      cases s.maxRows with
      | none => simp [atMost]
      | some count =>
        -- what is left of all rows is nothing only if the limit is zero or there are no rows
        have hzero : count.toNat = 0 ↔ some count = some 0 := by
          rw [Option.some_inj, ← UInt64.toNat_inj]
          rfl
        rw [← hzero]
        exact List.take_eq_nil_iff

end Select

end Pages

/-! ### Bounds as they are sent -/

/-- A query is another one with a limit and an offset behind it, for which the store binds certain
integers. -/
structure Query.PagedAs (q unpaged : Query) (limit offset : Option Int64) : Prop where
  sql : q.sql = unpaged.sql ++ (if limit.isSome then " LIMIT ?" else "") ++
    (if offset.isSome then " OFFSET ?" else "")
  bounds : ∃ bounds, q.params = unpaged.params ++ bounds ∧
    bounds.map Scalar.toStored = (limit.toList ++ offset.toList).map StoredValue.integer

namespace Select

/-- The same selection without bounds. -/
def unpaged (s : Select) : Select := { s with maxRows := none, skippedRows := none }

/-- The statement up to its bounds. -/
def body (s : Select) : Except Error Sql.Fragment := do
  let planned ← (plan s.model s.joins).mapError .resolution
  let condition ← s.predicate.clause
  return .ofText (s.head planned) ++ condition ++ .ofText (s.groupText ++ s.orderText)

/-- A selection is its text up to the numbers of rows, and these numbers. -/
theorem build_eq_body (s : Select) :
    s.build = s.body >>= fun body => (body ++ s.paging).toQuery := by
  unfold build body
  simp only [bind_assoc, pure_bind]

/-- The text of the numbers of rows has a mark for each that is sent. -/
theorem text_paging (s : Select) :
    String.ofList s.paging.text = (if s.sentLimit.isSome then " LIMIT ?" else "") ++
      (if s.skippedRows.isSome then " OFFSET ?" else "") := by
  unfold paging
  rw [Sql.Fragment.text_append, String.ofList_append]
  cases s.sentLimit <;> cases s.skippedRows <;> rfl

/-- Numbers of rows can always be sent. -/
theorem scalarsOf_bigUnsigned (counts : List UInt64) :
    scalarsOf (counts.map fun n => .bigUnsigned (some n)) =
      .ok (counts.map fun n => .uint64 (some n)) :=
  scalarsOf_eq_ok_iff.2 (List.forall₂_map_left_iff.2 (List.forall₂_map_right_iff.2
    (List.forall₂_same.2 fun _ _ => rfl)))

/-- A selection is sent as the same one without bounds, and its bounds wrap around. -/
theorem pagedAs_of_build {s : Select} {q : Query} (hq : s.build = .ok q) :
    ∃ unpaged, s.unpaged.build = .ok unpaged ∧
      q.PagedAs unpaged (s.sentLimit.map UInt64.toInt64) (s.skippedRows.map UInt64.toInt64) := by
  rw [build_eq_body] at hq
  obtain ⟨body, hbody, hq⟩ := bind_eq_ok.1 hq
  obtain ⟨hsql, hparams⟩ := Sql.Fragment.toQuery_eq_ok.1 hq
  rw [Sql.Fragment.values_append] at hparams
  -- the parameters of the bounds stand behind all others
  obtain ⟨first, bounds, hfirst, hbounds, hparams⟩ := scalarsOf_append_eq_ok.1 hparams
  refine ⟨⟨String.ofList body.text, first⟩, ?_, ?_, bounds, hparams, ?_⟩
  · -- without bounds the same text and the same values are sent
    rw [build_eq_body]
    refine bind_eq_ok.2 ⟨body, hbody, Sql.Fragment.toQuery_eq_ok.2 ⟨?_, ?_⟩⟩
    · show String.ofList body.text = String.ofList (body.text ++ [])
      rw [List.append_nil]
    · show scalarsOf (body.values ++ []) = _
      rw [List.append_nil]
      exact hfirst
  · rw [hsql, Sql.Fragment.text_append, String.ofList_append, text_paging, Option.isSome_map,
      Option.isSome_map, String.append_assoc]
  · rw [values_paging, scalarsOf_bigUnsigned] at hbounds
    cases hbounds
    cases s.sentLimit <;> cases s.skippedRows <;> rfl

/-- **The page of a selection.** It is sent as the same selection without bounds and two integers,
and for fewer than `2 ^ 63` rows of that selection the store gives those that it means: always if no
rows are skipped or fewer than `2 ^ 63`, and otherwise only if nothing is left of them anyway. -/
theorem page_iff {s : Select} {q : Query} (hq : s.build = .ok q) :
    ∃ unpaged limit offset, s.unpaged.build = .ok unpaged ∧ q.PagedAs unpaged limit offset ∧
      ∀ {α : Type} (rows : List α), rows.length < 2 ^ 63 →
        (storePage limit offset rows = s.page rows ↔
          (∀ n, s.skippedRows = some n → n.toNat < 2 ^ 63) ∨ s.maxRows = some 0 ∨ rows = []) := by
  obtain ⟨unpaged, hunpaged, hpaged⟩ := pagedAs_of_build hq
  exact ⟨unpaged, _, _, hunpaged, hpaged, fun rows => s.storePage_eq_iff⟩

end Select

namespace Survey

/-- All exercises but some of the first. -/
def skipping (count : UInt64) : Select := (Select.ofModel exercises).offset count

/-- The selection as it is sent. -/
def sentSkipping (count : UInt64) : Query :=
  ⟨"SELECT * FROM \"exercises\" LIMIT ? OFFSET ?",
    [.uint64 (some 9223372036854775807), .uint64 (some count)]⟩

end Survey

/-- An offset alone is sent with the limit that stands for none. -/
theorem Select.page_iff_skipping : (Survey.skipping 8).build = .ok (Survey.sentSkipping 8) ∧
    ∃ unpaged limit offset, (Survey.skipping 8).unpaged.build = .ok unpaged ∧
      (Survey.sentSkipping 8).PagedAs unpaged limit offset ∧
      ∀ rows : List Row, rows.length < 2 ^ 63 →
        storePage limit offset rows = (Survey.skipping 8).page rows := by
  have hbuild : (Survey.skipping 8).build = .ok (Survey.sentSkipping 8) := by decide +kernel
  obtain ⟨unpaged, limit, offset, hunpaged, hpaged, hpage⟩ := page_iff hbuild
  have hsmall : ∀ n, (Survey.skipping 8).skippedRows = some n → n.toNat < 2 ^ 63 := by
    intro n hn
    cases hn
    decide
  exact ⟨hbuild, unpaged, limit, offset, hunpaged, hpaged,
    fun rows hrows => (hpage rows hrows).2 (.inl hsmall)⟩

/-- An offset of `2 ^ 63` skips no row at all. -/
theorem Select.not_page_skipping :
    (Survey.skipping 9223372036854775808).build =
        .ok (Survey.sentSkipping 9223372036854775808) ∧
      (Survey.sentSkipping 9223372036854775808).PagedAs ⟨"SELECT * FROM \"exercises\"", []⟩
        (some Int64.maxValue) (some Int64.minValue) ∧
      storePage (some Int64.maxValue) (some Int64.minValue) [1, 2] = [1, 2] ∧
      (Survey.skipping 9223372036854775808).page [1, 2] = [] := by
  refine ⟨by decide +kernel, ⟨by decide, ?_⟩, by decide, by decide⟩
  exact ⟨(Survey.sentSkipping 9223372036854775808).params, rfl, by decide⟩

end QueryForest
