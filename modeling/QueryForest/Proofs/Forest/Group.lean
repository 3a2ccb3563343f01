import Mathlib.Data.List.Nodup
import QueryForest.Proofs.Data.Arrival
import QueryForest.Proofs.Value.Same

namespace QueryForest

/-!
# Grouping rows by a key

Rows of joined tables are about the same record when they carry the same key. `groupsBy` puts rows
together by their keys, without saying how: the first row of each key in order of arrival, and for
each of them all the rows with its key, in order. A row without a key, or with a key that is not
equal to itself, stands alone.

* `groupsBy_concat` — what one more row does to the groups: it either goes to the end of the one
  group that is about the same record, or it is a group of its own behind all others;
* `groupsBy_eq_of_keys` — where all rows have keys from a list of different ones, in its order,
  there is one group for each of them.
-/

variable {α : Type}

/-- Whether two rows have keys, and equal ones. -/
def sameKey (key : α → Option Scalar) (a b : α) : Bool :=
  match key a, key b with
  | some x, some y => x.same y
  | _, _ => false

/-- The rows with the key of a row, or that row alone if no row can have its key. -/
def companions (key : α → Option Scalar) (rows : List α) (first : α) : List α :=
  if sameKey key first first then rows.filter (sameKey key first) else [first]

/-- The rows with one key after those with another, in the order of the first rows. -/
def groupsBy (key : α → Option Scalar) (rows : List α) : List (List α) :=
  (rows.eraseDupsBy (sameKey key)).map (companions key rows)

/-- Whether a group is about the record of a row. -/
def isAbout (key : α → Option Scalar) (row : α) (group : List α) : Bool :=
  group.head?.any (sameKey key row)

variable {key : α → Option Scalar}

/-! ### Equal keys -/

/-- Having the same key is symmetric. -/
theorem sameKey_comm (a b : α) : sameKey key a b = sameKey key b a := by
  unfold sameKey
  cases key a <;> cases key b <;> simp [Scalar.same_comm]

/-- Having the same key is transitive. -/
theorem sameKey_trans {a b c : α} (hab : sameKey key a b = true) (hbc : sameKey key b c = true) :
    sameKey key a c = true := by
  unfold sameKey at *
  cases ha : key a <;> cases hb : key b <;> cases hc : key c <;> simp_all
  exact Scalar.same_trans hab hbc

/-- Rows with the same key share it with the same rows. -/
theorem sameKey_congr {a b : α} (h : sameKey key a b = true) (c : α) :
    sameKey key a c = sameKey key b c := by
  rw [Bool.eq_iff_iff]
  exact ⟨sameKey_trans (sameKey_comm a b ▸ h), sameKey_trans h⟩

/-- A row that shares its key with another shares it with itself. -/
theorem sameKey_self_right {a b : α} (h : sameKey key a b = true) : sameKey key b b = true :=
  sameKey_trans (sameKey_comm a b ▸ h) h

/-! ### Groups -/

/-- A group is headed by a row with the key of its first row. -/
theorem companions_head? (key : α → Option Scalar) {rows : List α} {first : α}
    (h : first ∈ rows) :
    ∃ row, (companions key rows first).head? = some row ∧ row ∈ rows ∧
      ∀ other, sameKey key other row = sameKey key other first := by
  unfold companions
  split
  · next hself =>
    have hmem : first ∈ rows.filter (sameKey key first) := List.mem_filter.2 ⟨h, hself⟩
    obtain ⟨row, rest, hrow⟩ := List.exists_cons_of_ne_nil (List.ne_nil_of_mem hmem)
    have hrow' : row ∈ rows.filter (sameKey key first) := hrow ▸ List.mem_cons_self
    refine ⟨row, by rw [hrow]; rfl, (List.mem_filter.1 hrow').1, fun other => ?_⟩
    rw [sameKey_comm other, sameKey_comm other]
    exact (sameKey_congr (List.mem_filter.1 hrow').2 other).symm
  · exact ⟨first, rfl, h, fun _ => rfl⟩

/-- Every group has a first row, and only rows of the whole. -/
theorem ne_nil_of_mem_groupsBy {rows group : List α} (h : group ∈ groupsBy key rows) :
    group ≠ [] := by
  obtain ⟨first, hfirst, rfl⟩ := List.mem_map.1 h
  obtain ⟨row, hrow, -, -⟩ := companions_head? key (mem_of_mem_eraseDupsBy hfirst)
  intro hnil
  rw [hnil] at hrow
  cases hrow

/-- A group has no other rows. -/
theorem subset_of_mem_groupsBy {rows group : List α} (h : group ∈ groupsBy key rows) :
    group ⊆ rows := by
  obtain ⟨first, hfirst, rfl⟩ := List.mem_map.1 h
  unfold companions
  split
  · exact List.filter_sublist.subset
  · intro row hrow
    rw [List.mem_singleton.1 hrow]
    exact mem_of_mem_eraseDupsBy hfirst

/-- A group is about a row's record when its first row has the key of that row. -/
theorem isAbout_companions {rows : List α} {first : α} (h : first ∈ rows) (row : α) :
    isAbout key row (companions key rows first) = sameKey key row first := by
  obtain ⟨head, hhead, -, hsame⟩ := companions_head? key h
  rw [isAbout, hhead]
  exact hsame row

/-- The first rows of two groups have different keys, if they have keys at all. -/
theorem groupsBy_pairwise (key : α → Option Scalar) (rows : List α) :
    (groupsBy key rows).Pairwise fun group other =>
      ∀ a, group.head? = some a → ∀ b, other.head? = some b → sameKey key a b = false := by
  refine List.pairwise_map.2 ((eraseDupsBy_pairwise (sameKey key) rows).imp_of_mem ?_)
  intro first second hfirst hsecond hne a ha b hb
  -- the first row of a group has the key of the row for which the group was kept
  obtain ⟨row, hrow, -, hsame⟩ := companions_head? key (mem_of_mem_eraseDupsBy hfirst)
  obtain ⟨row', hrow', -, hsame'⟩ := companions_head? key (mem_of_mem_eraseDupsBy hsecond)
  cases Option.some.inj (ha.symm.trans hrow)
  cases Option.some.inj (hb.symm.trans hrow')
  rw [hsame', sameKey_comm, hsame]
  exact hne

/-- The companions of a row when one more row arrives. -/
theorem companions_concat (rows : List α) (first row : α) :
    companions key (rows ++ [row]) first =
      if sameKey key row first then companions key rows first ++ [row]
      else companions key rows first := by
  unfold companions
  by_cases h : sameKey key row first = true
  · have hself : sameKey key first first = true := sameKey_self_right h
    have hrow : sameKey key first row = true := sameKey_comm row first ▸ h
    simp [h, hself, hrow]
  · rw [Bool.not_eq_true] at h
    have hrow : sameKey key first row = false := sameKey_comm row first ▸ h
    simp [h, hrow]

/-- The group about a row's record stands where the first row with its key was kept. -/
theorem findIdx?_isAbout (key : α → Option Scalar) (rows : List α) (row : α) :
    (groupsBy key rows).findIdx? (isAbout key row) =
      (rows.eraseDupsBy (sameKey key)).findIdx? (sameKey key row) := by
  rw [groupsBy, List.findIdx?_map]
  refine findIdx?_congr fun first hfirst => ?_
  exact isAbout_companions (mem_of_mem_eraseDupsBy hfirst) row

/-- The groups of the rows before one more row arrived, with that row in them. -/
theorem map_companions_concat (key : α → Option Scalar) (rows : List α) (row : α) :
    (rows.eraseDupsBy (sameKey key)).map (companions key (rows ++ [row])) =
      ((groupsBy key rows).findIdx? (isAbout key row)).elim (groupsBy key rows)
        fun i => (groupsBy key rows).modify i (· ++ [row]) := by
  -- two kept rows have different keys, so the new row has the key of one at most
  have hone : (rows.eraseDupsBy (sameKey key)).Pairwise
      fun a b => sameKey key row a = true → sameKey key row b = false := by
    refine (eraseDupsBy_pairwise (sameKey key) rows).imp ?_
    intro a b hba ha
    refine Bool.eq_false_iff.2 fun hb => ?_
    rw [sameKey_trans (sameKey_comm row b ▸ hb) ha] at hba
    cases hba
  rw [findIdx?_isAbout]
  refine Eq.trans ?_ (map_modify_findIdx? (companions key rows) (· ++ [row]) hone)
  exact List.map_congr_left fun first _ => companions_concat rows first row

/-- **One more row.** It goes to the end of the one group about its record, which holds the rows
with its key; or there is none, and it is a group of its own behind all others. -/
theorem groupsBy_concat (key : α → Option Scalar) (rows : List α) (row : α) :
    (∃ i, (groupsBy key rows).findIdx? (isAbout key row) = some i ∧
      (groupsBy key rows)[i]? = some (rows.filter (sameKey key row)) ∧
      rows.filter (sameKey key row) ≠ [] ∧
      groupsBy key (rows ++ [row]) =
        (groupsBy key rows).set i (rows.filter (sameKey key row) ++ [row])) ∨
    ((groupsBy key rows).findIdx? (isAbout key row) = none ∧
      rows.filter (sameKey key row) = [] ∧
      groupsBy key (rows ++ [row]) = groupsBy key rows ++ [[row]]) := by
  have hfind := findIdx?_isAbout key rows row
  have hmap := map_companions_concat key rows row
  cases hi : (groupsBy key rows).findIdx? (isAbout key row) with
  | some i =>
    -- the first row with the key of the new row was kept, and heads the group at its place
    left
    rw [hi] at hmap
    obtain ⟨hlt, hrow, -⟩ := List.findIdx?_eq_some_iff_getElem.1 (hfind ▸ hi)
    have hany : (rows.eraseDupsBy (sameKey key)).any (sameKey key row) = true :=
      List.any_eq_true.2 ⟨_, List.getElem_mem hlt, hrow⟩
    have hget : (groupsBy key rows)[i]? = some (rows.filter (sameKey key row)) := by
      rw [groupsBy, List.getElem?_map, List.getElem?_eq_getElem hlt]
      simp only [Option.map_some, companions, sameKey_self_right hrow, if_true]
      congr 2
      funext other
      exact (sameKey_congr hrow other).symm
    refine ⟨i, rfl, hget, ?_, ?_⟩
    · exact ne_nil_of_mem_groupsBy (List.mem_of_getElem? hget)
    · rw [groupsBy, eraseDupsBy_concat, if_pos hany, hmap]
      simp only [Option.elim_some, List.modify_eq_set, hget]
      rfl
  | none =>
    -- no kept row has the key of the new row, and so no row at all
    right
    rw [hi] at hmap
    rw [hfind, List.findIdx?_eq_none_iff] at hi
    have hany : ¬ (rows.eraseDupsBy (sameKey key)).any (sameKey key row) = true := by
      intro h
      obtain ⟨first, hfirst, hrow⟩ := List.any_eq_true.1 h
      rw [hi first hfirst] at hrow
      cases hrow
    have hnil : rows.filter (sameKey key row) = [] := by
      refine List.filter_eq_nil_iff.2 fun other hother hrow => ?_
      obtain ⟨first, hfirst, hsame⟩ :=
        exists_mem_eraseDupsBy hother (sameKey_self_right hrow)
      have hfalse := hi first hfirst
      rw [sameKey_trans hrow hsame] at hfalse
      cases hfalse
    refine ⟨rfl, hnil, ?_⟩
    rw [groupsBy, eraseDupsBy_concat, if_neg hany, List.map_append, hmap]
    congr 1
    unfold companions
    by_cases h : sameKey key row row = true
    · simp [h, hnil]
    · simp [h]

/-- A single row is a group of its own. -/
theorem groupsBy_singleton (key : α → Option Scalar) (row : α) : groupsBy key [row] = [[row]] := by
  rcases groupsBy_concat key [] row with ⟨i, hi, -⟩ | ⟨-, -, h⟩
  · cases hi
  · exact h

/-- Rows with different keys stand alone. -/
theorem groupsBy_of_pairwise {rows : List α}
    (h : rows.Pairwise fun a b => sameKey key a b = false) :
    groupsBy key rows = rows.map fun row => [row] := by
  induction rows using List.reverseRecOn with
  | nil => rfl
  | append_singleton rows row ih =>
    obtain ⟨hrows, -, hrow⟩ := List.pairwise_append.1 h
    have hnil : rows.filter (sameKey key row) = [] := by
      refine List.filter_eq_nil_iff.2 fun other hother hsame => ?_
      rw [sameKey_comm, hrow other hother row (List.mem_singleton.2 rfl)] at hsame
      cases hsame
    rcases groupsBy_concat key rows row with ⟨i, -, -, hne, -⟩ | ⟨-, -, heq⟩
    · exact absurd hnil hne
    · rw [heq, ih hrows, List.map_append, List.map_singleton]

/-- There are no more groups than rows. -/
theorem length_groupsBy_le (key : α → Option Scalar) (rows : List α) :
    (groupsBy key rows).length ≤ rows.length := by
  induction rows using List.reverseRecOn with
  | nil => exact Nat.le_refl 0
  | append_singleton rows row ih =>
    rw [List.length_append, List.length_singleton]
    rcases groupsBy_concat key rows row with ⟨i, -, -, -, heq⟩ | ⟨-, -, heq⟩
    · rw [heq, List.length_set]
      omega
    · rw [heq, List.length_append, List.length_singleton]
      omega

/-! ### Groups of keys -/

/-- Keys that are equal to themselves and different from each other. -/
structure DistinctKeys (keys : List Scalar) : Prop where
  isNaN : ∀ k ∈ keys, k.isNaN = false
  pairwise : keys.Pairwise fun k k' => k.same k' = false

namespace DistinctKeys

variable {keys : List Scalar}

/-- Among distinct keys, being the same is being equal. -/
theorem same_eq (h : DistinctKeys keys) {k k' : Scalar} (hk : k ∈ keys) (hk' : k' ∈ keys) :
    k.same k' = (k == k') := by
  have : Std.Symm fun k k' : Scalar => k.same k' = (k == k') :=
    ⟨fun a b hab => by rw [Scalar.same_comm, hab, Bool.beq_comm]⟩
  have hself : ∀ a ∈ keys, a.same a = (a == a) := by
    intro a ha
    rw [Scalar.same_self, h.isNaN a ha, beq_self_eq_true]
    rfl
  have hother : keys.Pairwise fun a b => a.same b = (a == b) := by
    refine h.pairwise.imp_of_mem fun {a b} ha _ hab => ?_
    rw [hab, eq_comm, beq_eq_false_iff_ne]
    rintro rfl
    rw [hself a ha, beq_self_eq_true] at hab
    cases hab
  exact hother.forall_of_forall hself hk hk'

/-- Distinct keys are different. -/
theorem nodup (h : DistinctKeys keys) : keys.Nodup := by
  refine h.pairwise.imp_of_mem fun {a b} ha hb hab heq => ?_
  rw [h.same_eq ha hb, heq, beq_self_eq_true] at hab
  cases hab

end DistinctKeys

/-- **Groups of keys.** Where the rows have the keys of a list, with first arrivals in its order,
the groups are the rows with the first key, those with the second, and so on. -/
theorem groupsBy_eq_of_keys {rows : List α} {keys : List Scalar} (h : DistinctKeys keys)
    (hkeys : SameArrivals (rows.map key) (keys.map some)) :
    groupsBy key rows = keys.map fun k => rows.filter fun row => key row == some k := by
  have hmem : ∀ row ∈ rows, ∃ k ∈ keys, key row = some k := by
    intro row hrow
    obtain ⟨k, hk, heq⟩ := List.mem_map.1 ((hkeys.mem_iff _).1 (List.mem_map_of_mem hrow))
    exact ⟨k, hk, heq.symm⟩
  -- among these rows, sharing a key is equality of keys, since none of them is missing or a NaN
  have hrows : ∀ a ∈ rows, ∀ b ∈ rows, sameKey key a b = (key a == key b) := by
    intro a ha b hb
    obtain ⟨k, hk, ha⟩ := hmem a ha
    obtain ⟨k', hk', hb⟩ := hmem b hb
    unfold sameKey
    rw [ha, hb]
    exact h.same_eq hk hk'
  have hcompanions : ∀ first ∈ rows, companions key rows first =
      rows.filter fun row => key row == key first := by
    intro first hfirst
    unfold companions
    rw [hrows first hfirst first hfirst, beq_self_eq_true, if_pos rfl]
    refine List.filter_congr fun row hrow => ?_
    rw [hrows first hfirst row hrow, Bool.beq_comm]
  have hdistinct : (keys.map some).eraseDups = keys.map some :=
    eraseDups_of_nodup (h.nodup.map fun _ _ => Option.some.inj)
  calc groupsBy key rows
      = (rows.eraseDupsBy (sameKey key)).map fun first =>
          rows.filter fun row => key row == key first :=
        List.map_congr_left fun first hfirst => hcompanions first (mem_of_mem_eraseDupsBy hfirst)
    _ = ((rows.eraseDupsBy fun a b => key a == key b).map key).map fun k =>
          rows.filter fun row => key row == k := by
        rw [eraseDupsBy_congr hrows, List.map_map]
        rfl
    _ = keys.map fun k => rows.filter fun row => key row == some k := by
        rw [map_eraseDupsBy, hkeys, hdistinct, List.map_map]
        rfl

end QueryForest
