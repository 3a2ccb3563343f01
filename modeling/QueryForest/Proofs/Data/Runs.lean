import Mathlib.Data.List.Basic

namespace QueryForest

/-!
# Runs of one element

An element that is taken in pairs from the left is left over once in every run of odd length.

* `OddRun a l after` — a run of odd length that no further `a` adjoins, with `after` behind it;
* `runs_induction` — a list is a run, or a run with another element and a list behind it;
* `oddRun_replicate` and `oddRun_append_cons` — the odd runs of such lists;
* `unpaired` — how many of an element are left over, and `halved` — the list with one element for
  each pair;
* `unpaired_ne_zero_iff` — something is left over exactly when there is an odd run.
-/

variable {α β : Type}

/-- A run of an odd number of `a`, as long as it can be, with `after` behind it. -/
def OddRun (a : α) (l after : List α) : Prop :=
  ∃ before n, l = before ++ List.replicate n a ++ after ∧ n % 2 = 1 ∧
    before.getLast? ≠ some a ∧ after.head? ≠ some a

/-! ### Lists by their runs -/

/-- Induction on the runs of an element: the first run of a list, another element, and the rest. -/
theorem runs_induction [DecidableEq α] (a : α) {P : List α → Prop}
    (run : ∀ n, P (List.replicate n a))
    (next : ∀ n c rest, c ≠ a → P rest → P (List.replicate n a ++ c :: rest)) (l : List α) :
    P l := by
  -- a run may already have been read in front of the list
  have hread : ∀ n, P (List.replicate n a ++ l) := by
    induction l with
    | nil =>
      intro n
      rw [List.append_nil]
      exact run n
    | cons c rest ih =>
      intro n
      by_cases hc : c = a
      · subst hc
        have hlonger := ih (n + 1)
        rw [List.replicate_succ', List.append_assoc] at hlonger
        exact hlonger
      · exact next n c rest hc (ih 0)
  exact hread 0

/-- A run starts with its element. -/
theorem head?_replicate_append {a : α} {n : Nat} (h : 0 < n) (l : List α) :
    (List.replicate n a ++ l).head? = some a := by
  obtain ⟨m, rfl⟩ : ∃ m, n = m + 1 := ⟨n - 1, by omega⟩
  rfl

/-- Two runs that end where another element stands have the same length. -/
theorem replicate_append_inj {a : α} {m n : Nat} {x y : List α} (hx : x.head? ≠ some a)
    (hy : y.head? ≠ some a) (h : List.replicate m a ++ x = List.replicate n a ++ y) :
    m = n ∧ x = y := by
  induction m generalizing n with
  | zero =>
    cases n with
    | zero => exact ⟨rfl, h⟩
    | succ n =>
      rw [List.replicate_zero, List.nil_append] at h
      -- one run is over and the other is not
      exact absurd (h ▸ head?_replicate_append (by omega) y) hx
  | succ m ih =>
    cases n with
    | zero =>
      rw [List.replicate_zero, List.nil_append] at h
      exact absurd (h ▸ head?_replicate_append (by omega) x) hy
    | succ n =>
      rw [List.replicate_succ, List.replicate_succ, List.cons_append, List.cons_append,
        List.cons.injEq] at h
      obtain ⟨hlength, hrest⟩ := ih h.2
      exact ⟨by omega, hrest⟩

/-- What stands in front of a run and is part of a longer run is empty. -/
theorem eq_nil_of_replicate {a : α} {n : Nat} {before l : List α} (hlast : before.getLast? ≠ some a)
    (h : List.replicate n a = before ++ l) : before = [] := by
  rcases List.eq_nil_or_concat before with rfl | ⟨front, c, rfl⟩
  · rfl
  · have hc : c ∈ List.replicate n a := by
      rw [h]
      simp
    rw [List.eq_of_mem_replicate hc] at hlast
    exact absurd (by simp) hlast

section OddRun

variable {a c : α} {n : Nat} {rest after : List α}

/-- A run alone is odd if its length is. -/
theorem oddRun_replicate : OddRun a (List.replicate n a) after ↔ n % 2 = 1 ∧ after = [] := by
  constructor
  · rintro ⟨before, m, h, hodd, hbefore, hafter⟩
    rw [List.append_assoc] at h
    obtain rfl := eq_nil_of_replicate hbefore h
    rw [List.nil_append] at h
    obtain ⟨rfl, hnil⟩ := replicate_append_inj (x := []) (by simp) hafter
      ((List.append_nil _).trans h)
    exact ⟨hodd, hnil.symm⟩
  · rintro ⟨hodd, rfl⟩
    exact ⟨[], n, by simp, hodd, by simp, by simp⟩

/-- An odd run is the first run of a list, or one behind the next element. -/
theorem oddRun_append_cons (hc : c ≠ a) : OddRun a (List.replicate n a ++ c :: rest) after ↔
    (n % 2 = 1 ∧ after = c :: rest) ∨ OddRun a rest after := by
  constructor
  · rintro ⟨before, m, h, hodd, hbefore, hafter⟩
    rw [List.append_assoc] at h
    rcases List.append_eq_append_iff.1 h with ⟨l, hl, hrest⟩ | ⟨l, hl, hrest⟩
    · -- the other element belongs to what stands in front of the run, or starts it
      cases l with
      | nil =>
        rw [List.nil_append] at hrest
        have hhead : (c :: rest).head? = some a := by
          rw [hrest]
          exact head?_replicate_append (by omega) after
        exact absurd (Option.some.inj hhead) hc
      | cons d l =>
        rw [List.cons_append, List.cons.injEq] at hrest
        refine .inr ⟨l, m, by rw [hrest.2, List.append_assoc], hodd, fun hlast => hbefore ?_, hafter⟩
        rw [hl, List.getLast?_append, List.getLast?_cons, hlast]
        rfl
    · -- nothing stands in front of the run, so that it is the first one
      obtain rfl := eq_nil_of_replicate hbefore hl
      rw [List.nil_append] at hl
      rw [← hl] at hrest
      obtain ⟨hlength, hnext⟩ := replicate_append_inj hafter (by simpa using hc) hrest
      exact .inl ⟨hlength ▸ hodd, hnext⟩
  · rintro (⟨hodd, rfl⟩ | ⟨before, m, rfl, hodd, hbefore, hafter⟩)
    · exact ⟨[], n, by simp, hodd, by simp, by simpa using hc⟩
    · -- a run further behind keeps the element in front of it, which is the other element at the
      -- latest
      refine ⟨List.replicate n a ++ c :: before, m, by simp, hodd, ?_, hafter⟩
      rw [List.getLast?_append, List.getLast?_cons]
      cases hlast : before.getLast? with
      | none => simpa using hc
      | some d =>
        rw [hlast] at hbefore
        simpa using hbefore

end OddRun

/-! ### Pairs -/

variable [DecidableEq α] [DecidableEq β]

/-- How many `a` are left over when they are taken in pairs from the left. -/
def unpaired (a : α) : List α → Nat
  | [] => 0
  | [c] => if c = a then 1 else 0
  | c :: d :: rest =>
    if c = a ∧ d = a then unpaired a rest else (if c = a then 1 else 0) + unpaired a (d :: rest)

/-- The list with one `a` for every pair of them. -/
def halved (a : α) : List α → List α
  | [] => []
  | [c] => [c]
  | c :: d :: rest => if c = a ∧ d = a then a :: halved a rest else c :: halved a (d :: rest)

section Pairs

variable {a c : α} {rest : List α}

/-- A pair leaves nothing over. -/
@[simp] theorem unpaired_cons_cons_self (a : α) (rest : List α) :
    unpaired a (a :: a :: rest) = unpaired a rest := by
  simp [unpaired]

/-- A pair becomes one element. -/
@[simp] theorem halved_cons_cons_self (a : α) (rest : List α) :
    halved a (a :: a :: rest) = a :: halved a rest := by
  simp [halved]

/-- An element that is not followed by itself is left over. -/
theorem unpaired_cons_self (h : rest.head? ≠ some a) :
    unpaired a (a :: rest) = unpaired a rest + 1 := by
  cases rest with
  | nil => simp [unpaired]
  | cons d rest =>
    have hd : d ≠ a := by simpa using h
    simp [unpaired, hd, Nat.add_comm]

/-- A lone element stays. -/
theorem halved_cons_self (h : rest.head? ≠ some a) : halved a (a :: rest) = a :: halved a rest := by
  cases rest with
  | nil => rfl
  | cons d rest =>
    have hd : d ≠ a := by simpa using h
    simp [halved, hd]

/-- Other elements are not counted. -/
theorem unpaired_cons_of_ne (h : c ≠ a) : unpaired a (c :: rest) = unpaired a rest := by
  cases rest <;> simp [unpaired, h]

/-- Other elements stay. -/
theorem halved_cons_of_ne (h : c ≠ a) : halved a (c :: rest) = c :: halved a rest := by
  cases rest <;> simp [halved, h]

/-- Induction on a list in which an element is taken in pairs. -/
theorem pairs_induction (a : α) {P : List α → Prop} (nil : P [])
    (pair : ∀ rest, P rest → P (a :: a :: rest))
    (lone : ∀ rest, rest.head? ≠ some a → P rest → P (a :: rest))
    (other : ∀ c rest, c ≠ a → P rest → P (c :: rest)) (l : List α) : P l := by
  fun_induction halved a l with
  | case1 => exact nil
  | case2 c =>
    by_cases hc : c = a
    · exact hc ▸ lone [] (by simp) nil
    · exact other c [] hc nil
  | case3 c d rest h ih =>
    obtain ⟨rfl, rfl⟩ := h
    exact pair rest ih
  | case4 c d rest h ih =>
    by_cases hc : c = a
    · subst hc
      exact lone (d :: rest) (fun hhead => h ⟨rfl, Option.some.inj hhead⟩) ih
    · exact other c (d :: rest) hc ih

/-- No pair lies across the end of a list if what follows does not start with the element. -/
theorem unpaired_append {l m : List α} (h : m.head? ≠ some a) :
    unpaired a (l ++ m) = unpaired a l + unpaired a m := by
  induction l using pairs_induction a with
  | nil => simp [unpaired]
  | pair rest ih => simp [ih]
  | lone rest hrest ih =>
    have hnext : (rest ++ m).head? ≠ some a := by
      cases rest with
      | nil => exact h
      | cons d rest => exact hrest
    rw [List.cons_append, unpaired_cons_self hnext, unpaired_cons_self hrest, ih]
    omega
  | other c rest hc ih => rw [List.cons_append, unpaired_cons_of_ne hc, unpaired_cons_of_ne hc, ih]

/-- A list may be halved in parts, if no run goes from one to the other. -/
theorem halved_append {l m : List α} (h : m.head? ≠ some a) :
    halved a (l ++ m) = halved a l ++ halved a m := by
  induction l using pairs_induction a with
  | nil => simp [halved]
  | pair rest ih => simp [ih]
  | lone rest hrest ih =>
    have hnext : (rest ++ m).head? ≠ some a := by
      cases rest with
      | nil => exact h
      | cons d rest => exact hrest
    rw [List.cons_append, halved_cons_self hnext, halved_cons_self hrest, ih, List.cons_append]
  | other c rest hc ih =>
    rw [List.cons_append, halved_cons_of_ne hc, halved_cons_of_ne hc, ih, List.cons_append]

/-- Pairs stay pairs under a map that tells the element from all others. -/
theorem unpaired_map {f : α → β} (hf : ∀ c, f c = f a → c = a) (l : List α) :
    unpaired (f a) (l.map f) = unpaired a l := by
  induction l using pairs_induction a with
  | nil => rfl
  | pair rest ih => simp [ih]
  | lone rest hrest ih =>
    have hnext : (rest.map f).head? ≠ some (f a) := by
      cases rest with
      | nil => simp
      | cons d rest => exact fun hhead => hrest (congrArg some (hf d (Option.some.inj hhead)))
    rw [List.map_cons, unpaired_cons_self hnext, unpaired_cons_self hrest, ih]
  | other c rest hc ih =>
    rw [List.map_cons, unpaired_cons_of_ne (mt (hf c) hc), unpaired_cons_of_ne hc, ih]

/-- Halving a list of images is halving the list, if only the element itself has its image. -/
theorem halved_map {f : α → β} (hf : ∀ c, f c = f a → c = a) (l : List α) :
    halved (f a) (l.map f) = (halved a l).map f := by
  induction l using pairs_induction a with
  | nil => rfl
  | pair rest ih => simp [ih]
  | lone rest hrest ih =>
    have hnext : (rest.map f).head? ≠ some (f a) := by
      cases rest with
      | nil => simp
      | cons d rest => exact fun hhead => hrest (congrArg some (hf d (Option.some.inj hhead)))
    rw [List.map_cons, halved_cons_self hnext, halved_cons_self hrest, ih, List.map_cons]
  | other c rest hc ih =>
    rw [List.map_cons, halved_cons_of_ne (mt (hf c) hc), halved_cons_of_ne hc, ih, List.map_cons]

/-- Nothing is left over of an element that is not there. -/
theorem unpaired_eq_zero_of_not_mem {l : List α} (h : a ∉ l) : unpaired a l = 0 := by
  induction l with
  | nil => rfl
  | cons c rest ih =>
    rw [List.mem_cons, not_or] at h
    rw [unpaired_cons_of_ne (Ne.symm h.1), ih h.2]

/-- A run leaves one element over if its length is odd. -/
theorem unpaired_replicate (a : α) (n : Nat) : unpaired a (List.replicate n a) = n % 2 := by
  induction n using Nat.strongRecOn with
  | ind n ih =>
    match n with
    | 0 => rfl
    | 1 => simp [unpaired]
    | n + 2 =>
      rw [List.replicate_succ, List.replicate_succ, unpaired_cons_cons_self, ih n (by omega)]
      omega

/-- **Odd runs.** Something of an element is left over exactly when it has a run of odd length. -/
theorem unpaired_ne_zero_iff (a : α) (l : List α) : unpaired a l ≠ 0 ↔ ∃ after, OddRun a l after := by
  induction l using runs_induction a with
  | run n =>
    rw [unpaired_replicate]
    simp only [oddRun_replicate, exists_and_left, exists_eq, and_true]
    omega
  | next n c rest hc ih =>
    have hsum : unpaired a (List.replicate n a ++ c :: rest) = n % 2 + unpaired a rest := by
      rw [unpaired_append (by simpa using hc), unpaired_replicate, unpaired_cons_of_ne hc]
    simp only [oddRun_append_cons hc, exists_or, exists_and_left, exists_eq, and_true, ← ih, hsum]
    omega

end Pairs

end QueryForest
