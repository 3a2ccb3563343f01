import Mathlib.Data.List.Basic
import Mathlib.Data.List.Induction
import Mathlib.Data.List.Pairwise

namespace QueryForest

/-!
# First arrivals

`List.eraseDupsBy r` keeps the first of several elements that `r` takes for the same, in the order
in which they arrive. What happens when one more element arrives at the end is all that a program
needs that goes through a list from the front.

* `eraseDupsBy_concat` — one more element is kept unless it is the same as one that was kept;
* `eraseDupsBy_pairwise`, `exists_mem_eraseDupsBy` — no two kept elements are the same, and every
  element is the same as a kept one;
* `map_modify_findIdx?` — where at most one element of a list is marked, changing the marked
  elements is changing the one that a search finds;
* `SameArrivals` — two lists have the same elements with the same first arrivals, which is kept by
  `map`, `filter` and `++`, so that it can be read off the factors of a product.
-/

universe u v

variable {α : Type u} {β : Type v}

/-! ### Keeping first arrivals -/

/-- One more element goes behind those that were kept, unless it is related to one of them. -/
theorem eraseDupsBy_loop_concat (r : α → α → Bool) (l kept : List α) (a : α) :
    List.eraseDupsBy.loop r (l ++ [a]) kept =
      if (List.eraseDupsBy.loop r l kept).any (r a) then List.eraseDupsBy.loop r l kept
      else List.eraseDupsBy.loop r l kept ++ [a] := by
  induction l generalizing kept with
  | nil =>
    simp only [List.nil_append, List.eraseDupsBy.loop, List.any_reverse]
    by_cases h : kept.any (r a) = true
    · rw [h]; simp
    · rw [Bool.not_eq_true] at h
      rw [h]; simp
  | cons b l ih =>
    simp only [List.cons_append, List.eraseDupsBy.loop]
    by_cases h : kept.any (r b) = true
    · simp only [h]
      -- the head is related to a kept element and is dropped
      exact ih kept
    · rw [Bool.not_eq_true] at h
      simp only [h]
      exact ih (b :: kept)

/-- One more element is kept unless it is the same as a kept one. -/
theorem eraseDupsBy_concat (r : α → α → Bool) (l : List α) (a : α) :
    (l ++ [a]).eraseDupsBy r =
      if (l.eraseDupsBy r).any (r a) then l.eraseDupsBy r else l.eraseDupsBy r ++ [a] :=
  eraseDupsBy_loop_concat r l [] a

/-- No element is new. -/
theorem mem_of_mem_eraseDupsBy {r : α → α → Bool} {l : List α} {a : α}
    (h : a ∈ l.eraseDupsBy r) : a ∈ l := by
  induction l using List.reverseRecOn with
  | nil => exact h
  | append_singleton l b ih =>
    rw [eraseDupsBy_concat] at h
    split at h
    · exact List.mem_append_left _ (ih h)
    · rcases List.mem_append.1 h with h | h
      · exact List.mem_append_left _ (ih h)
      · exact List.mem_append_right _ h

/-- No element is the same as one that was kept before it. -/
theorem eraseDupsBy_pairwise (r : α → α → Bool) (l : List α) :
    (l.eraseDupsBy r).Pairwise (fun a b => r b a = false) := by
  induction l using List.reverseRecOn with
  | nil => exact List.Pairwise.nil
  | append_singleton l b ih =>
    rw [eraseDupsBy_concat]
    split
    · exact ih
    · next h =>
      refine List.pairwise_append.2 ⟨ih, List.pairwise_singleton _ _, ?_⟩
      intro a ha c hc
      rw [List.mem_singleton.1 hc]
      exact Bool.eq_false_iff.2 fun hba => h (List.any_eq_true.2 ⟨a, ha, hba⟩)

/-- Every element that is the same as itself is the same as a kept one. -/
theorem exists_mem_eraseDupsBy {r : α → α → Bool} {l : List α} {a : α} (h : a ∈ l)
    (hself : r a a = true) : ∃ b ∈ l.eraseDupsBy r, r a b = true := by
  induction l using List.reverseRecOn with
  | nil => cases h
  | append_singleton l c ih =>
    rw [eraseDupsBy_concat]
    rcases List.mem_append.1 h with h | h
    · obtain ⟨b, hb, hab⟩ := ih h
      refine ⟨b, ?_, hab⟩
      split
      · exact hb
      · exact List.mem_append_left _ hb
    · rw [List.mem_singleton.1 h] at hself ⊢
      split
      · next hany => exact List.any_eq_true.1 hany
      · exact ⟨c, List.mem_append_right _ (List.mem_singleton.2 rfl), hself⟩

/-! ### Changing the marked element -/

/-- The first index depends on the test for the elements of the list only. -/
theorem findIdx?_congr {p q : α → Bool} {l : List α} (h : ∀ a ∈ l, p a = q a) :
    l.findIdx? p = l.findIdx? q := by
  induction l with
  | nil => rfl
  | cons a l ih =>
    rw [List.findIdx?_cons, List.findIdx?_cons, h a List.mem_cons_self,
      ih fun b hb => h b (List.mem_cons_of_mem a hb)]

/-- Where at most one element is marked, changing the marked elements is changing the one that a
search finds. -/
theorem map_modify_findIdx? {p : α → Bool} (f : α → β) (change : β → β) {l : List α}
    (h : l.Pairwise fun a b => p a = true → p b = false) :
    l.map (fun a => if p a then change (f a) else f a) =
      (l.findIdx? p).elim (l.map f) fun i => (l.map f).modify i change := by
  induction l with
  | nil => rfl
  | cons a l ih =>
    rw [List.pairwise_cons] at h
    by_cases ha : p a = true
    · -- nothing behind a marked element is marked
      have hrest : l.map (fun b => if p b then change (f b) else f b) = l.map f :=
        List.map_congr_left fun b hb => by simp [h.1 b hb ha]
      simp [List.findIdx?_cons, ha, hrest]
    · rw [Bool.not_eq_true] at ha
      simp only [List.map_cons, ha, Bool.false_eq_true, if_false, List.findIdx?_cons, ih h.2]
      cases l.findIdx? p <;> simp

/-! ### Lists with the same first arrivals -/

/-- On lists whose elements two relations compare alike, the same elements are kept. -/
theorem eraseDupsBy_congr {r r' : α → α → Bool} {l : List α}
    (h : ∀ a ∈ l, ∀ b ∈ l, r a b = r' a b) : l.eraseDupsBy r = l.eraseDupsBy r' := by
  induction l using List.reverseRecOn with
  | nil => rfl
  | append_singleton l b ih =>
    have ih' := ih fun a ha c hc => h a (List.mem_append_left _ ha) c (List.mem_append_left _ hc)
    rw [eraseDupsBy_concat, eraseDupsBy_concat, ih']
    have hany : (l.eraseDupsBy r').any (r b) = (l.eraseDupsBy r').any (r' b) := by
      rw [Bool.eq_iff_iff, List.any_eq_true, List.any_eq_true]
      refine exists_congr fun c => and_congr_right fun hc => ?_
      have hmem : c ∈ l ++ [b] := List.mem_append_left _ (mem_of_mem_eraseDupsBy hc)
      rw [h b (by simp) c hmem]
    rw [hany]

section Lawful

variable [BEq α] [LawfulBEq α]

/-- One more element stays if it has not occurred. -/
theorem eraseDups_concat (l : List α) (a : α) :
    (l ++ [a]).eraseDups = if a ∈ l then l.eraseDups else l.eraseDups ++ [a] := by
  have hany : ((l.eraseDupsBy (· == ·)).any (a == ·) = true) ↔ a ∈ l := by
    rw [← List.mem_eraseDups (l := l), List.any_eq_true]
    constructor
    · rintro ⟨b, hb, hab⟩
      exact eq_of_beq hab ▸ hb
    · exact fun h => ⟨a, h, beq_self_eq_true a⟩
  unfold List.eraseDups
  rw [eraseDupsBy_concat]
  by_cases h : a ∈ l
  · rw [if_pos h, if_pos (hany.2 h)]
  · rw [if_neg h, if_neg fun h' => h (hany.1 h')]

/-- Nothing is erased from different elements. -/
theorem eraseDups_of_nodup {l : List α} (h : l.Nodup) : l.eraseDups = l := by
  induction l using List.reverseRecOn with
  | nil => rfl
  | append_singleton l c ih =>
    rw [List.nodup_append] at h
    have hc : c ∉ l := fun hmem => h.2.2 c hmem c (List.mem_singleton.2 rfl) rfl
    rw [eraseDups_concat, if_neg hc, ih h.1]

/-- What stays, stays in its order. -/
theorem eraseDups_sublist (l : List α) : l.eraseDups.Sublist l := by
  induction l using List.reverseRecOn with
  | nil => exact List.Sublist.slnil
  | append_singleton l c ih =>
    rw [eraseDups_concat]
    split
    · exact ih.trans (List.sublist_append_left l [c])
    · exact ih.append_right [c]

/-- What stays is different. -/
theorem nodup_eraseDups (l : List α) : l.eraseDups.Nodup := by
  induction l using List.reverseRecOn with
  | nil => exact List.nodup_nil
  | append_singleton l c ih =>
    rw [eraseDups_concat]
    split
    · exact ih
    · next hc =>
      refine List.nodup_append.2 ⟨ih, List.pairwise_singleton _ c, fun a ha b hb hab => ?_⟩
      rw [List.mem_singleton.1 hb] at hab
      exact hc (List.mem_eraseDups.1 (hab ▸ ha))

/-- Repeats may be erased before or behind a filter. -/
theorem eraseDups_filter (p : α → Bool) (l : List α) :
    (l.filter p).eraseDups = l.eraseDups.filter p := by
  induction l using List.reverseRecOn with
  | nil => rfl
  | append_singleton l c ih =>
    rw [List.filter_append, List.filter_singleton, eraseDups_concat]
    by_cases hp : p c = true
    · simp only [hp, cond_true]
      rw [eraseDups_concat, ih]
      by_cases hc : c ∈ l
      · rw [if_pos hc, if_pos (List.mem_filter.2 ⟨hc, hp⟩)]
      · rw [if_neg hc, if_neg fun h => hc (List.mem_filter.1 h).1, List.filter_append,
          List.filter_singleton, hp]
        rfl
    · rw [Bool.not_eq_true] at hp
      simp only [hp, cond_false, List.append_nil]
      rw [ih]
      split
      · rfl
      · rw [List.filter_append, List.filter_singleton, hp]
        exact (List.append_nil _).symm

end Lawful

/-- Keeping one element for each value of a function, the values are the distinct ones. -/
theorem map_eraseDupsBy [BEq β] [LawfulBEq β] (f : α → β) (l : List α) :
    (l.eraseDupsBy fun a b => f a == f b).map f = (l.map f).eraseDups := by
  induction l using List.reverseRecOn with
  | nil => rfl
  | append_singleton l c ih =>
    have hany : ((l.eraseDupsBy fun a b => f a == f b).any fun b => f c == f b) = true ↔
        f c ∈ l.map f := by
      rw [← List.mem_eraseDups (l := l.map f), ← ih, List.any_eq_true, List.mem_map]
      refine exists_congr fun b => and_congr_right fun _ => ?_
      rw [beq_iff_eq, eq_comm]
    rw [eraseDupsBy_concat, List.map_append, List.map_singleton, eraseDups_concat]
    by_cases h : f c ∈ l.map f
    · rw [if_pos (hany.2 h), if_pos h, ih]
    · rw [if_neg fun h' => h (hany.1 h'), if_neg h, List.map_append, ih]
      rfl

/-- Two lists have the same elements, with first arrivals in the same order. -/
def SameArrivals [BEq α] (l l' : List α) : Prop := l.eraseDups = l'.eraseDups

namespace SameArrivals

variable [BEq α] [LawfulBEq α] [BEq β] [LawfulBEq β] {k l l' m m' : List α}

/-- The elements are the same. -/
theorem mem_iff (h : SameArrivals l l') (a : α) : a ∈ l ↔ a ∈ l' := by
  rw [← List.mem_eraseDups, ← List.mem_eraseDups (l := l'), h]

/-- The same elements arrive in the same order behind a filter. -/
theorem filter (h : SameArrivals l l') (p : α → Bool) :
    SameArrivals (l.filter p) (l'.filter p) := by
  unfold SameArrivals at *
  rw [eraseDups_filter, eraseDups_filter, h]

/-- Lists with the same arrivals may be put together. -/
theorem append (h : SameArrivals l l') (h' : SameArrivals m m') :
    SameArrivals (l ++ m) (l' ++ m') := by
  have hcontains : ∀ a, l.contains a = l'.contains a := by
    intro a
    rw [Bool.eq_iff_iff, List.contains_iff_mem, List.contains_iff_mem]
    exact h.mem_iff a
  have hrest : SameArrivals (m.removeAll l) (m'.removeAll l') := by
    unfold List.removeAll
    simp only [List.elem_eq_contains, hcontains]
    exact h'.filter _
  unfold SameArrivals at *
  rw [List.eraseDups_append, List.eraseDups_append, h, hrest]

/-- Elements that are there already may be left out at the end. -/
theorem append_subset (h : m ⊆ l) : SameArrivals (l ++ m) l := by
  have hnil : m.removeAll l = [] := by
    unfold List.removeAll
    refine List.filter_eq_nil_iff.2 fun a ha => ?_
    simpa using h ha
  unfold SameArrivals
  rw [List.eraseDups_append, hnil, List.eraseDups_nil, List.append_nil]

/-- Repeats do not matter to what arrives behind a function. -/
theorem eraseDups_map (f : α → β) (l : List α) :
    SameArrivals (l.eraseDups.map f) (l.map f) := by
  induction l using List.reverseRecOn with
  | nil => rfl
  | append_singleton l a ih =>
    rw [eraseDups_concat]
    split
    · next ha =>
      rw [List.map_append]
      refine Eq.trans ih (append_subset ?_).symm
      simpa using ⟨a, ha, rfl⟩
    · rw [List.map_append, List.map_append]
      exact ih.append rfl

/-- The same elements arrive in the same order behind a function. -/
theorem map (h : SameArrivals l l') (f : α → β) : SameArrivals (l.map f) (l'.map f) := by
  have hl := eraseDups_map f l
  have hl' := eraseDups_map f l'
  unfold SameArrivals at *
  rw [← hl, ← hl', h]

/-! Products: what arrives in one factor, repeated for all of the other. -/

/-- Repeating each element changes nothing. -/
theorem flatMap_replicate {γ : Type} (g : γ → α) (f : γ → Nat) {c : List γ}
    (hf : ∀ a ∈ c, f a ≠ 0) :
    SameArrivals (c.flatMap fun a => List.replicate (f a) (g a)) (c.map g) := by
  induction c with
  | nil => rfl
  | cons a c ih =>
    obtain ⟨n, hn⟩ := Nat.exists_eq_succ_of_ne_zero (hf a List.mem_cons_self)
    have hone : SameArrivals (List.replicate (f a) (g a)) [g a] := by
      rw [hn, List.replicate_succ, ← List.singleton_append]
      refine append_subset fun b hb => ?_
      rw [List.eq_of_mem_replicate hb]
      exact List.mem_singleton.2 rfl
    rw [List.flatMap_cons, List.map_cons, ← List.singleton_append]
    exact hone.append (ih fun b hb => hf b (List.mem_cons_of_mem a hb))

/-- Repeating a whole list changes nothing. -/
theorem flatMap_const {γ : Type} {c : List γ} (h : c ≠ []) (l : List α) :
    SameArrivals (c.flatMap fun _ => l) l := by
  obtain ⟨a, rest, rfl⟩ := List.exists_cons_of_ne_nil h
  rw [List.flatMap_cons]
  refine append_subset fun b hb => ?_
  obtain ⟨-, -, hb⟩ := List.mem_flatMap.1 hb
  exact hb

/-- The fronts of all combinations of fronts and backs. -/
theorem map_take_product {δ : Type} [BEq δ] [LawfulBEq δ] {n : Nat} {fronts backs : List (List δ)}
    (hlength : ∀ front ∈ fronts, front.length = n) (hbacks : backs ≠ []) :
    SameArrivals ((fronts.flatMap fun front => backs.map (front ++ ·)).map (List.take n))
      fronts := by
  have heq : (fronts.flatMap fun front => backs.map (front ++ ·)).map (List.take n) =
      fronts.flatMap fun front => List.replicate backs.length front := by
    rw [List.map_flatMap]
    refine List.flatMap_congr fun front hfront => ?_
    rw [List.map_map, List.eq_replicate_iff]
    refine ⟨List.length_map _, fun b hb => ?_⟩
    obtain ⟨back, -, rfl⟩ := List.mem_map.1 hb
    exact List.take_left' (hlength front hfront)
  have h := flatMap_replicate (fun front => front) (fun _ => backs.length) (c := fronts)
    fun _ _ => mt List.length_eq_zero_iff.1 hbacks
  rw [heq]
  rwa [List.map_id'] at h

/-- The backs of all combinations of fronts and backs. -/
theorem map_drop_product {δ : Type} [BEq δ] [LawfulBEq δ] {n : Nat} {fronts backs : List (List δ)}
    (hlength : ∀ front ∈ fronts, front.length = n) (hfronts : fronts ≠ []) :
    SameArrivals ((fronts.flatMap fun front => backs.map (front ++ ·)).map (List.drop n))
      backs := by
  have heq : (fronts.flatMap fun front => backs.map (front ++ ·)).map (List.drop n) =
      fronts.flatMap fun _ => backs := by
    rw [List.map_flatMap]
    refine List.flatMap_congr fun front hfront => ?_
    rw [List.map_map]
    refine Eq.trans (List.map_congr_left fun back _ => ?_) (List.map_id backs)
    exact List.drop_left' (hlength front hfront)
  rw [heq]
  exact flatMap_const hfronts backs

end SameArrivals

end QueryForest
