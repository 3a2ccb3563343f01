import QueryForest.Value.Scalar

namespace QueryForest

/-!
# Equality of values is a partial equivalence

Records are told apart by `Scalar.same`, which is not equality: the two zeros of a floating-point
format are equal, and a NaN is not even equal to itself.

* `Scalar.isNaN` tells the values that are not equal to themselves (`Scalar.same_self`);
* `Scalar.same_comm` and `Scalar.same_trans` — on all values the relation is symmetric and
  transitive, so keys that are not NaN fall into classes.
-/

/-! ### Numbers -/

namespace Binary

variable {f : BinaryFormat}

/-- A floating-point number equals itself unless it is no number. -/
theorem same_self (x : Binary f) : x.same x = !x.isNaN := by
  simp [same]

/-- Equality of floating-point numbers is symmetric. -/
theorem same_comm (x y : Binary f) : x.same y = y.same x := by
  simp only [same]
  rw [Bool.and_comm (!x.isNaN), Bool.beq_comm, Bool.and_comm (x.magnitude == 0)]

/-- Equality of floating-point numbers is transitive. -/
theorem same_trans {x y z : Binary f} (hxy : x.same y = true) (hyz : y.same z = true) :
    x.same z = true := by
  simp only [same, Bool.and_eq_true, Bool.or_eq_true, Bool.not_eq_true', beq_iff_eq] at hxy hyz ⊢
  refine ⟨⟨hxy.1.1, hyz.1.2⟩, ?_⟩
  -- numbers with equal patterns have equal magnitudes
  have magnitude_eq : ∀ {a b : Binary f}, a.bits = b.bits → a.magnitude = b.magnitude := by
    intro a b h
    simp only [magnitude, h]
  rcases hxy.2 with h | h
  · rcases hyz.2 with h' | h'
    · exact Or.inl (h.trans h')
    · exact Or.inr ⟨magnitude_eq h ▸ h'.1, h'.2⟩
  · rcases hyz.2 with h' | h'
    · exact Or.inr ⟨h.1, magnitude_eq h' ▸ h.2⟩
    · exact Or.inr ⟨h.1, h'.2⟩

end Binary

/-! ### Values -/

namespace Scalar

/-- Whether a value is a floating-point NaN. -/
def isNaN : Scalar → Bool
  | float (some x) => x.isNaN
  | double (some x) => x.isNaN
  | _ => false

/-- Equality with NULLs is symmetric. -/
theorem sameNumber_comm {f : BinaryFormat} (x y : Option (Binary f)) :
    sameNumber x y = sameNumber y x := by
  cases x <;> cases y <;> simp [sameNumber, Binary.same_comm]

/-- Equality with NULLs is transitive. -/
theorem sameNumber_trans {f : BinaryFormat} {x y z : Option (Binary f)}
    (hxy : sameNumber x y = true) (hyz : sameNumber y z = true) : sameNumber x z = true := by
  cases x <;> cases y <;> cases z <;> simp_all [sameNumber]
  exact Binary.same_trans hxy hyz

/-- A value equals itself unless it is a NaN. -/
theorem same_self (x : Scalar) : x.same x = !x.isNaN := by
  cases x
  case float v => cases v <;> simp [same, sameNumber, isNaN, Binary.same_self]
  case double v => cases v <;> simp [same, sameNumber, isNaN, Binary.same_self]
  all_goals simp [same, isNaN]

/-- Equality of values is symmetric. -/
theorem same_comm (x y : Scalar) : x.same y = y.same x := by
  cases x <;> cases y
  case float.float v w => exact sameNumber_comm v w
  case double.double v w => exact sameNumber_comm v w
  all_goals exact Bool.beq_comm

/-- What equals a number of 32 bits is one. -/
theorem eq_float_of_same {v : Option Binary32} {y : Scalar} (h : (float v).same y = true) :
    ∃ w, y = float w ∧ sameNumber v w = true := by
  cases y
  case float w => exact ⟨w, rfl, h⟩
  all_goals simp [same] at h

/-- What equals a number of 64 bits is one. -/
theorem eq_double_of_same {v : Option Binary64} {y : Scalar} (h : (double v).same y = true) :
    ∃ w, y = double w ∧ sameNumber v w = true := by
  cases y
  case double w => exact ⟨w, rfl, h⟩
  all_goals simp [same] at h

/-- Equality of values is transitive. -/
theorem same_trans {x y z : Scalar} (hxy : x.same y = true) (hyz : y.same z = true) :
    x.same z = true := by
  cases x
  case float v =>
    obtain ⟨w, rfl, hvw⟩ := eq_float_of_same hxy
    obtain ⟨u, rfl, hwu⟩ := eq_float_of_same hyz
    exact sameNumber_trans hvw hwu
  case double v =>
    obtain ⟨w, rfl, hvw⟩ := eq_double_of_same hxy
    obtain ⟨u, rfl, hwu⟩ := eq_double_of_same hyz
    exact sameNumber_trans hvw hwu
  all_goals
    have h : _ = y := eq_of_beq hxy
    subst h
    exact hyz

end Scalar

end QueryForest
