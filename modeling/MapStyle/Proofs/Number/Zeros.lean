import MapStyle.Color.Basic
import MapStyle.Proofs.Number.Order

/-!
# The zeros

Numbers are compared by their places, and the two zeros share one. They are the only numbers that
do: `Scalar.ZeroSigned` says so, and `Color.Rounded` that the sign of a zero is lost where a
channel is rounded to a byte.
-/

namespace MapStyle

/-- Equal numbers are one number, or zeros of either sign. -/
class Scalar.ZeroSigned (α : Type) [Scalar α] : Prop where
  eq_or_zeros {a b : α} :
    (a == b) = true → a = b ∨ ((a == Scalar.zero) = true ∧ (b == Scalar.zero) = true)

/-- Equal channels are rounded to one byte. -/
class Color.Rounded (N : Type) [Scalar N] : Prop where
  toByte_eq {a b : N} : (a == b) = true → Color.toByte a = Color.toByte b

namespace Binary

variable {f : Format}

/-- A code is put together from the sign and the magnitude. -/
theorem code_eq (x : Binary f) :
    x.code = (if x.isNegative then f.signCode else 0) + x.magnitude := by
  have bound := x.code_lt
  rw [← f.two_signCode] at bound
  rw [isNegative, magnitude]
  by_cases negative : f.signCode ≤ x.code
  · rw [if_pos (decide_eq_true negative), Nat.mod_eq_sub_mod negative, Nat.mod_eq_of_lt] <;> omega
  · rw [if_neg (by simpa using negative), Nat.mod_eq_of_lt (by omega), Nat.zero_add]

theorem eq_of_magnitude {x y : Binary f} (sign : x.isNegative = y.isNegative)
    (magnitude : x.magnitude = y.magnitude) : x = y :=
  eq_of_code (by rw [code_eq, sign, magnitude, ← code_eq])

/-- Numbers with one place are one number, or of no magnitude. -/
theorem eq_or_magnitudes {x y : Binary f} (same : x.key = y.key) :
    x = y ∨ (x.magnitude = 0 ∧ y.magnitude = 0) := by
  unfold key at same
  cases first : x.isNegative <;> cases second : y.isNegative <;>
    simp only [first, second, if_true, if_false, Bool.false_eq_true] at same
  · exact .inl (eq_of_magnitude (first.trans second.symm) (by omega))
  · exact .inr (by omega)
  · exact .inr (by omega)
  · exact .inl (eq_of_magnitude (first.trans second.symm) (by omega))

/-- A number of no magnitude is one of the two zeros. -/
theorem eq_zero_of_magnitude {x : Binary f} (none : x.magnitude = 0) : x = zero x.isNegative :=
  eq_of_code (by rw [zero, code_signed (Nat.two_pow_pos _), code_eq, none])

theorem equal_zero (negative : Bool) : equal (zero negative : Binary f) (ofNat 0) = true := by
  have key_zero (sign : Bool) : (zero sign : Binary f).key = 0 := by
    rw [key, zero, magnitude_signed (Nat.two_pow_pos _)]
    simp
  have number (sign : Bool) : (zero sign : Binary f).isNaN = false := isNaN_signed (Nat.zero_le _) _
  rw [equal, show (ofNat 0 : Binary f) = zero false from rfl, number, number, key_zero, key_zero]
  rfl

/-- Equal numbers are one number, or of no magnitude. -/
theorem eq_or_magnitudes_of_equal {x y : Binary f} (same : equal x y = true) :
    x = y ∨ (x.magnitude = 0 ∧ y.magnitude = 0) := by
  simp only [equal, Bool.and_eq_true, beq_iff_eq] at same
  exact eq_or_magnitudes same.2

/-- Exactly what has no magnitude equals zero. -/
theorem equal_zero_iff {x : Binary f} : equal x (ofNat 0) = true ↔ x.magnitude = 0 := by
  constructor
  · intro same
    rcases eq_or_magnitudes_of_equal same with rfl | ⟨none, -⟩
    · exact magnitude_signed (Nat.two_pow_pos _) _
    · exact none
  · intro none
    rw [eq_zero_of_magnitude none]
    exact equal_zero _

instance : Scalar.ZeroSigned Double where
  eq_or_zeros := by
    intro a b same
    rcases eq_or_magnitudes_of_equal same with same | ⟨first, second⟩
    · exact .inl same
    · rw [eq_zero_of_magnitude first, eq_zero_of_magnitude second]
      exact .inr ⟨equal_zero _, equal_zero _⟩

instance : Color.Rounded Single where
  toByte_eq := by
    have byte (negative : Bool) : Color.toByte (zero negative : Single) = 0 := by
      cases negative <;> decide
    intro a b same
    rcases eq_or_magnitudes_of_equal same with same | ⟨first, second⟩
    · rw [same]
    · rw [eq_zero_of_magnitude first, eq_zero_of_magnitude second, byte, byte]

end Binary

end MapStyle
