import Mathlib.Data.Nat.Log
import Mathlib.Tactic.Ring
import QueryForest.Numeric.Binary

namespace QueryForest

/-!
# Numbers in a wider format

Rounding changes nothing where the format has the number: the quotient is then a significand of the
format times a power of two. A finite number of 32 bits is such a number of 64 bits.

* `BinaryFormat.Significand` — a number at a power of two as a format writes it;
* `BinaryFormat.round_exact` — the pattern of a number that the format has;
* `BinaryFormat.units_pattern` — and that number back from the pattern;
* `Binary.Equals` — whether finite numbers of two formats are the same number;
* `Binary.equals_convert` — a finite number of 32 bits is converted to the same number of 64 bits,
  and `Binary.not_isFinite_convert` — what is not finite stays so.
-/

namespace BinaryFormat

/-- Whether a number stands at a power of two as a format writes it: with as many bits as there are,
the leading one set unless the power is the least. -/
structure Significand (f : BinaryFormat) (q s : Nat) : Prop where
  lt : q < 2 ^ (f.fractionBits + 1)
  leading : s = 0 ∨ 2 ^ f.fractionBits ≤ q

variable {f : BinaryFormat} {q s : Nat}

/-- The logarithm of a significand at a power of two. -/
theorem Significand.log2_sub (h : f.Significand q s) :
    Nat.log2 (q * 2 ^ s) - f.fractionBits = s := by
  have hlt := h.lt
  rcases Nat.eq_zero_or_pos q with rfl | hpos
  · rcases h.leading with rfl | hle
    · simp
    · exact absurd hle (Nat.not_le.2 (Nat.two_pow_pos _))
  · have hne : q * 2 ^ s ≠ 0 := Nat.mul_ne_zero hpos.ne' (Nat.two_pow_pos s).ne'
    rcases h.leading with rfl | hle
    · have hlog : Nat.log2 (q * 2 ^ 0) < f.fractionBits + 1 := (Nat.log2_lt hne).2 (by simpa)
      omega
    · have hlog : Nat.log2 (q * 2 ^ s) = f.fractionBits + s := by
        refine (Nat.log2_eq_iff hne).2 ⟨?_, ?_⟩
        · rw [pow_add]
          exact Nat.mul_le_mul_right _ hle
        · rw [show f.fractionBits + s + 1 = f.fractionBits + 1 + s by omega, pow_add]
          exact Nat.mul_lt_mul_of_pos_right hlt (Nat.two_pow_pos s)
      omega

/-- **A number that the format has** is not changed by rounding. -/
theorem round_exact (h : f.Significand q s) {num den : Nat} (hden : 0 < den)
    (hnum : num * 2 ^ f.scale = q * 2 ^ s * den)
    (hfinite : s * 2 ^ f.fractionBits + q < f.infinity) :
    f.round num den = s * 2 ^ f.fractionBits + q := by
  have hshift : Nat.log2 (q * 2 ^ s * den / den) - f.fractionBits = s := by
    rw [Nat.mul_div_cancel _ hden]
    exact h.log2_sub
  have hnearest : nearest (q * 2 ^ s * den) (den * 2 ^ s) = q := by
    have hpos : 0 < den * 2 ^ s := Nat.mul_pos hden (Nat.two_pow_pos s)
    have heq : q * 2 ^ s * den = q * (den * 2 ^ s) := by ring
    unfold nearest
    rw [heq, Nat.mul_div_cancel _ hpos, Nat.mul_mod_left]
    simp [hpos]
  have hscaled : num * Nat.pow 2 f.scale = q * 2 ^ s * den := hnum
  unfold round
  rw [hscaled]
  simp only [hshift]
  show min (s * 2 ^ f.fractionBits + nearest (q * 2 ^ s * den) (den * 2 ^ s)) f.infinity = _
  rw [hnearest, min_eq_left hfinite.le]

/-- The number of a pattern, by its two fields. -/
theorem units_eq (f : BinaryFormat) (magnitude : Nat) : f.units magnitude =
    if magnitude / 2 ^ f.fractionBits = 0 then magnitude % 2 ^ f.fractionBits
    else (2 ^ f.fractionBits + magnitude % 2 ^ f.fractionBits) *
      2 ^ (magnitude / 2 ^ f.fractionBits - 1) :=
  rfl

/-- The number of a pattern is its significand times a power of two. -/
theorem units_pattern (h : f.Significand q s) :
    f.units (s * 2 ^ f.fractionBits + q) = q * 2 ^ s := by
  have hpos := Nat.two_pow_pos f.fractionBits
  have hq := h.lt
  rw [pow_succ] at hq
  rw [units_eq, Nat.mul_comm s, Nat.mul_add_div hpos, Nat.mul_add_mod]
  by_cases hlt : q < 2 ^ f.fractionBits
  · -- a number without the leading bit stands at the least exponent only
    have hzero : s = 0 := h.leading.resolve_right (Nat.not_le.2 hlt)
    rw [hzero, Nat.div_eq_of_lt hlt, Nat.mod_eq_of_lt hlt]
    simp
  · rw [Nat.not_lt] at hlt
    have hdiv : q / 2 ^ f.fractionBits = 1 := by
      rw [Nat.div_eq_iff hpos]
      omega
    have hmod : q % 2 ^ f.fractionBits = q - 2 ^ f.fractionBits := by
      rw [Nat.mod_eq_sub_mod hlt, Nat.mod_eq_of_lt (by omega)]
    rw [hdiv, hmod, if_neg (by omega), Nat.add_sub_cancel, Nat.add_sub_cancel' hlt]

/-- The number of a pattern, as a significand with a power of two. -/
theorem exists_significand (f : BinaryFormat) (magnitude : Nat) :
    ∃ m k, f.units magnitude = m * 2 ^ k ∧ m < 2 ^ (f.fractionBits + 1) ∧
      k ≤ magnitude / 2 ^ f.fractionBits - 1 := by
  have hmod := Nat.mod_lt magnitude (Nat.two_pow_pos f.fractionBits)
  rw [units_eq, pow_succ]
  split
  · exact ⟨magnitude % 2 ^ f.fractionBits, 0, by simp, by omega, Nat.zero_le _⟩
  · exact ⟨2 ^ f.fractionBits + magnitude % 2 ^ f.fractionBits, _, rfl, by omega, le_rfl⟩

end BinaryFormat

namespace Binary

variable {f : BinaryFormat}

/-- The bits of a number are its pattern, with the sign bit in front. -/
theorem toNat_ofMagnitude {negative : Bool} {n : Nat} (h : n < f.signBit) :
    (ofMagnitude negative n : Binary f).bits.toNat =
      if negative then f.signBit + n else n := by
  have hwidth : 2 ^ f.width = 2 * f.signBit := by
    show 2 ^ (1 + f.exponentBits + f.fractionBits) = 2 * 2 ^ (f.exponentBits + f.fractionBits)
    rw [Nat.add_assoc, pow_add, pow_one]
  unfold ofMagnitude
  rw [BitVec.toNat_ofNat, hwidth]
  refine Nat.mod_eq_of_lt ?_
  split <;> omega

/-- The magnitude of a number that is made from one. -/
theorem magnitude_ofMagnitude {negative : Bool} {n : Nat} (h : n < f.signBit) :
    (ofMagnitude negative n : Binary f).magnitude = n := by
  unfold magnitude
  rw [toNat_ofMagnitude h]
  cases negative
  · exact Nat.mod_eq_of_lt h
  · exact (Nat.add_mod_left _ _).trans (Nat.mod_eq_of_lt h)

/-- The sign of a number that is made from one. -/
theorem isNegative_ofMagnitude {negative : Bool} {n : Nat} (h : n < f.signBit) :
    (ofMagnitude negative n : Binary f).isNegative = negative := by
  unfold isNegative
  rw [toNat_ofMagnitude h]
  cases negative
  · exact decide_eq_false (Nat.not_le.2 h)
  · exact decide_eq_true (Nat.le_add_right _ _)

/-- Whether finite numbers of two formats are the same number: they have one sign, and as many
least positive numbers of the one as of the other, weighed by what these are. -/
def Equals {g : BinaryFormat} (x : Binary f) (y : Binary g) : Prop :=
  x.isNegative = y.isNegative ∧ x.units * 2 ^ g.scale = y.units * 2 ^ f.scale

/-- A finite number of 32 bits, in least positive numbers of 64 bits: as a significand of 64 bits
with a power of two. -/
theorem exists_wide_significand {x : Binary32} (h : x.magnitude < BinaryFormat.single.infinity) :
    ∃ q s, x.units * 2 ^ BinaryFormat.double.scale = q * 2 ^ s * 2 ^ BinaryFormat.single.scale ∧
      BinaryFormat.double.Significand q s ∧ s ≤ 1149 := by
  have hdouble : BinaryFormat.double.scale = 1074 := by decide
  have hsingle : BinaryFormat.single.scale = 149 := by decide
  obtain ⟨m, k, hunits, hm, hk⟩ :=
    BinaryFormat.exists_significand .single x.magnitude
  have hexponent : x.magnitude / 2 ^ 23 < 255 := (Nat.div_lt_iff_lt_mul (by decide)).2 h
  -- the exponent field of a finite number is below 255, and two of its values stand for the same
  -- power
  have hk253 : k ≤ 253 := by
    have hk' : k ≤ x.magnitude / 2 ^ 23 - 1 := hk
    omega
  rcases Nat.eq_zero_or_pos m with rfl | hpos
  · refine ⟨0, 0, ?_, ⟨by decide, Or.inl rfl⟩, Nat.zero_le _⟩
    show BinaryFormat.single.units x.magnitude * _ = _
    rw [hunits, Nat.zero_mul, Nat.zero_mul, Nat.zero_mul, Nat.zero_mul]
  · -- the leading bit is moved to its place
    have hlow := Nat.log2_self_le hpos.ne'
    have hhigh : m < 2 ^ (Nat.log2 m + 1) := (Nat.log2_lt hpos.ne').1 (Nat.lt_succ_self _)
    have hlog : Nat.log2 m < 24 := (Nat.log2_lt hpos.ne').2 hm
    refine ⟨m * 2 ^ (52 - Nat.log2 m), k + Nat.log2 m + 873, ?_, ⟨?_, Or.inr ?_⟩, by omega⟩
    · show BinaryFormat.single.units x.magnitude * _ = _
      have hplaces : k + BinaryFormat.double.scale =
          52 - Nat.log2 m + (k + Nat.log2 m + 873) + BinaryFormat.single.scale := by
        omega
      rw [hunits, Nat.mul_assoc, ← pow_add, hplaces, pow_add, pow_add, ← Nat.mul_assoc,
        ← Nat.mul_assoc]
    · calc m * 2 ^ (52 - Nat.log2 m)
          < 2 ^ (Nat.log2 m + 1) * 2 ^ (52 - Nat.log2 m) :=
            Nat.mul_lt_mul_of_pos_right hhigh (Nat.two_pow_pos _)
        _ = 2 ^ 53 := by
            rw [← pow_add]
            congr 1
            omega
    · calc 2 ^ 52 = 2 ^ Nat.log2 m * 2 ^ (52 - Nat.log2 m) := by
            rw [← pow_add]
            congr 1
            omega
        _ ≤ m * 2 ^ (52 - Nat.log2 m) := Nat.mul_le_mul_right _ hlow

/-- **A finite number of 32 bits** is converted to the same number of 64 bits, which is finite. -/
theorem equals_convert {x : Binary32} (h : x.isFinite = true) :
    (x.convert .double).isFinite = true ∧ (x.convert .double).Equals x := by
  have hfinite : x.magnitude < BinaryFormat.single.infinity := of_decide_eq_true h
  have hconvert : x.convert .double =
      ofRatio x.isNegative x.units (Nat.pow 2 BinaryFormat.single.scale) := by
    unfold convert
    rw [if_neg, if_neg]
    · exact fun heq => hfinite.ne (beq_iff_eq.1 heq)
    · exact fun hnan => absurd (of_decide_eq_true hnan) (Nat.not_lt.2 hfinite.le)
  obtain ⟨q, s, hnum, hsignificand, hbound⟩ := exists_wide_significand hfinite
  -- the pattern of 64 bits is finite and leaves the sign bit alone
  have hpattern : s * 2 ^ 52 + q < BinaryFormat.double.infinity := by
    have hlt : q < 2 ^ 53 := hsignificand.lt
    show s * 2 ^ 52 + q < (2 ^ 11 - 1) * 2 ^ 52
    omega
  have hsign : s * 2 ^ 52 + q < BinaryFormat.double.signBit :=
    hpattern.trans (by decide)
  -- the ratio is a significand with a power of two, so that nothing is rounded
  have hround : BinaryFormat.double.round x.units (Nat.pow 2 BinaryFormat.single.scale) =
      s * 2 ^ 52 + q :=
    BinaryFormat.round_exact hsignificand (Nat.two_pow_pos _) hnum hpattern
  have hmagnitude : (x.convert .double).magnitude = s * 2 ^ 52 + q := by
    rw [hconvert, ofRatio, hround, magnitude_ofMagnitude hsign]
  refine ⟨?_, ?_, ?_⟩
  · unfold isFinite
    rw [hmagnitude]
    exact decide_eq_true hpattern
  · rw [hconvert, ofRatio, hround, isNegative_ofMagnitude hsign]
  · have hunits : (x.convert .double).units = q * 2 ^ s := by
      unfold units
      rw [hmagnitude]
      exact BinaryFormat.units_pattern hsignificand
    rw [hunits, hnum]

/-- What is no finite number of 32 bits becomes none of 64 bits. -/
theorem not_isFinite_convert {x : Binary32} (h : x.isFinite = false) :
    (x.convert .double).isFinite = false := by
  have hlarge : BinaryFormat.single.infinity ≤ x.magnitude :=
    Nat.not_lt.1 (of_decide_eq_false h)
  unfold convert
  by_cases hnan : x.isNaN = true
  · rw [if_pos hnan]
    decide
  · have hle : x.magnitude ≤ BinaryFormat.single.infinity :=
      Nat.not_lt.1 (of_decide_eq_false (Bool.not_eq_true _ ▸ hnan))
    have hinfinite : x.isInfinite = true := beq_iff_eq.2 (Nat.le_antisymm hle hlarge)
    rw [if_neg hnan, if_pos hinfinite]
    cases x.isNegative <;> decide

end Binary

end QueryForest
