import Mathlib.Algebra.Ring.Nat
import QueryForest.Numeric.Shortest
import QueryForest.Text.Blank
import QueryForest.Text.Digits

namespace QueryForest

/-!
# Digits that are read back

A number that is written with a fixed count of digits is read back by a reader that takes as many,
and by one that takes more where no digit follows.

* `Digits.value_fixed` — the digits that are written spell the number, as far as they go;
* `Digits.span_append` — a run of digits is split off from what follows;
* `Digits.take?_fixed` — both together, and `Digits.skipBlank_fixed` where white space is skipped;
* `lt_pow_digitCount` — the count of digits that a number needs.
-/

namespace Digits

/-! ### Digits in writing -/

/-- Numbers below ten are written as digits. -/
theorem isDigit_digit {n : Nat} (h : n < 10) : (digit n).isDigit = true :=
  (by decide : ∀ n < 10, (digit n).isDigit = true) n h

/-- A digit is read as the number it was written for. -/
theorem toNat_digit {n : Nat} (h : n < 10) : (digit n).toNat - 48 = n :=
  (by decide : ∀ n < 10, (digit n).toNat - 48 = n) n h

@[simp] theorem length_fixed (width n : Nat) : (fixed width n).length = width := by
  induction width generalizing n with
  | zero => rfl
  | succ width ih => rw [fixed, List.length_append, ih, List.length_singleton]

/-- Numbers of a fixed width consist of digits. -/
theorem isDigit_of_mem_fixed {width n : Nat} {c : Char} (h : c ∈ fixed width n) :
    c.isDigit = true := by
  induction width generalizing n with
  | zero => cases h
  | succ width ih =>
    rw [fixed, List.mem_append, List.mem_singleton] at h
    rcases h with h | rfl
    · exact ih h
    · exact isDigit_digit (Nat.mod_lt n (by decide))

/-- A further digit multiplies what is in front of it by ten. -/
theorem value_concat (ds : List Char) (d : Char) :
    value (ds ++ [d]) = 10 * value ds + (d.toNat - 48) := by
  unfold value
  rw [List.foldl_append]
  rfl

/-- The digits spell the number, less what takes more places than there are. -/
theorem value_fixed (width n : Nat) : value (fixed width n) = n % 10 ^ width := by
  induction width generalizing n with
  | zero => rw [Nat.pow_zero, Nat.mod_one]; rfl
  | succ width ih =>
    rw [fixed, value_concat, ih, toNat_digit (Nat.mod_lt n (by decide)), Nat.pow_succ',
      Nat.mod_mul, Nat.add_comm]

/-! ### Reading digits -/

/-- No digit stands at the start of a text. -/
def NoDigitAhead (text : List Char) : Prop := ∀ c, text.head? = some c → c.isDigit = false

theorem noDigitAhead_nil : NoDigitAhead [] := fun _ h => by cases h

theorem noDigitAhead_cons {c : Char} (h : c.isDigit = false) (text : List Char) :
    NoDigitAhead (c :: text) := by
  rintro _ ⟨⟩
  exact h

/-- Digits are split off as far as the reader goes or they go. -/
theorem span_append {max : Nat} {ds rest : List Char} (hds : ∀ c ∈ ds, c.isDigit = true)
    (hmax : ds.length ≤ max) (hrest : ds.length = max ∨ NoDigitAhead rest) :
    span max (ds ++ rest) = (ds, rest) := by
  induction ds generalizing max with
  | nil =>
    cases max with
    | zero => rfl
    | succ max =>
      cases rest with
      | nil => rfl
      | cons c rest =>
        -- the reader would take more, but what follows is no digit
        have hc : c.isDigit = false := by
          rcases hrest with h | h
          · cases h
          · exact h c rfl
        simp only [List.nil_append, span, hc, Bool.false_eq_true, if_false]
  | cons d ds ih =>
    cases max with
    | zero => cases hmax
    | succ max =>
      have hd := hds d List.mem_cons_self
      have hspan := ih (fun c hc => hds c (List.mem_cons_of_mem d hc)) (Nat.le_of_succ_le_succ hmax)
        (hrest.imp_left Nat.succ.inj)
      simp only [List.cons_append, span, hd, if_true, hspan]

/-- **A written number is read back** by a reader that takes as many digits, or more where no digit
follows. -/
theorem take?_fixed {min max width n : Nat} {rest : List Char} (hn : n < 10 ^ width)
    (hmin : min ≤ width) (hmax : width ≤ max) (hrest : width = max ∨ NoDigitAhead rest) :
    take? min max (fixed width n ++ rest) = some (n, rest) := by
  have hspan : span max (fixed width n ++ rest) = (fixed width n, rest) :=
    span_append (fun _ => isDigit_of_mem_fixed) (by rwa [length_fixed]) (by rwa [length_fixed])
  unfold take?
  rw [hspan]
  dsimp only
  rw [length_fixed, if_pos hmin, value_fixed, Nat.mod_eq_of_lt hn]

/-- Nothing is read in front of another character. -/
theorem take?_eq_none {min max : Nat} {text : List Char} (hmin : 0 < min)
    (h : NoDigitAhead text) : take? min max text = none := by
  have hspan : span max ([] ++ text) = ([], text) := span_append (by simp) (Nat.zero_le max) (.inr h)
  rw [List.nil_append] at hspan
  unfold take?
  rw [hspan]
  dsimp only
  rw [List.length_nil, if_neg (Nat.not_le.2 hmin)]

/-! ### White space in front -/

/-- Digits are not blanks. -/
theorem isBlank_of_isDigit {c : Char} (h : c.isDigit = true) : isBlank c = false := by
  have hrange : 48 ≤ c.toNat ∧ c.toNat ≤ 57 := Char.isDigit_iff_toNat.1 h
  simp only [isBlank, Bool.or_eq_false_iff, Bool.and_eq_false_iff, decide_eq_false_iff_not,
    beq_eq_false_iff_ne]
  omega

/-- Nothing is skipped in front of what is no blank. -/
theorem skipBlank_cons {c : Char} (h : isBlank c = false) (text : List Char) :
    skipBlank (c :: text) = c :: text :=
  List.dropWhile_cons_of_neg (by simp [h])

/-- A number starts with a digit. -/
theorem exists_fixed_eq_cons {width : Nat} (h : 0 < width) (n : Nat) :
    ∃ c ds, fixed width n = c :: ds ∧ c.isDigit = true := by
  obtain ⟨c, ds, heq⟩ := List.exists_cons_of_length_pos (by rwa [length_fixed width n])
  exact ⟨c, ds, heq, isDigit_of_mem_fixed (heq ▸ List.mem_cons_self)⟩

/-- No white space stands in front of a number. -/
theorem skipBlank_fixed {width : Nat} (h : 0 < width) (n : Nat) (rest : List Char) :
    skipBlank (fixed width n ++ rest) = fixed width n ++ rest := by
  obtain ⟨c, ds, heq, hc⟩ := exists_fixed_eq_cons h n
  rw [heq]
  exact skipBlank_cons (isBlank_of_isDigit hc) _

end Digits

/-- A number has no more digits than it is counted to have. -/
theorem lt_pow_digitCount (n : Nat) : n < 10 ^ digitCount n := by
  fun_induction digitCount n with
  | case1 => decide
  | case2 n hn ih =>
    rw [Nat.pow_succ]
    omega

end QueryForest
