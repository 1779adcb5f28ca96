import Mathlib
import MapStyle.Proofs.Number.Order

/-!
# Exact numbers

Any ordered field with a floor can take the place of both machine types: nothing is rounded,
nothing is no number, and a quotient by zero is whatever the field says. The functions that a
field does not determine are given by `Elementary`, and nothing is assumed of them. The
lemmas say what the operations of `Scalar` are there, so that proofs can go on in the field.
-/

namespace MapStyle

/-- The functions on numbers that an ordered field does not determine. -/
class Elementary (K : Type) where
  remainder : K → K → K
  power : K → K → K
  sqrt : K → K
  sin : K → K
  cos : K → K
  atan : K → K
  atan2 : K → K → K
  infinity : K
  undefined : K
  text : K → String
  literal : K → String
  code : K → Nat
  precedes : K → K → Bool

namespace Exact

variable {K : Type} [Field K] [LinearOrder K] [FloorRing K] [Elementary K]

/-- The number a decimal literal stands for. -/
def ofDecimal (d : Decimal) : K :=
  let magnitude : K := (d.digits : K) * 10 ^ d.exponent
  if d.negative then -magnitude else magnitude

instance scalar : Scalar K where
  add := fun a b => a + b
  sub := fun a b => a - b
  mul := fun a b => a * b
  div := fun a b => a / b
  neg := fun a => -a
  beq := fun a b => decide (a = b)
  ofNat := fun n => n
  ofDecimal := ofDecimal
  remainder := Elementary.remainder
  power := Elementary.power
  abs := fun a => |a|
  floor := fun a => ⌊a⌋
  ceil := fun a => ⌈a⌉
  sqrt := Elementary.sqrt
  sin := Elementary.sin
  cos := Elementary.cos
  atan := Elementary.atan
  atan2 := Elementary.atan2
  lt := fun a b => decide (a < b)
  le := fun a b => decide (a ≤ b)
  isNaN := fun _ => false
  isFinite := fun _ => true
  toNat := fun a => ⌊a⌋.toNat
  infinity := Elementary.infinity
  undefined := Elementary.undefined
  text := Elementary.text
  literal := Elementary.literal
  code := Elementary.code
  precedes := Elementary.precedes

/-- The wide and the narrow type are one, so narrowing changes nothing. -/
instance precision {K : Type} [Field K] [Elementary K] : Precision K K := ⟨id⟩

@[simp] theorem narrow_eq {K : Type} [Field K] [Elementary K] (a : K) : (narrow a : K) = a := rfl

instance : Scalar.Ordered K where
  lt_trans := by
    intro a b c first second
    have first : a < b := of_decide_eq_true first
    have second : b < c := of_decide_eq_true second
    exact decide_eq_true (first.trans second)
  lt_of_not_le := by
    intro d e above
    have above := of_decide_eq_false above
    exact decide_eq_true (not_le.1 above)

@[simp] theorem lt_iff {a b : K} : Scalar.lt a b = true ↔ a < b := decide_eq_true_iff

@[simp] theorem le_iff {a b : K} : Scalar.le a b = true ↔ a ≤ b := decide_eq_true_iff

@[simp] theorem isNaN_eq (a : K) : Scalar.isNaN a = false := rfl

@[simp] theorem ofNat_eq (n : Nat) : (Scalar.ofNat n : K) = n := rfl

@[simp] theorem zero_eq : (Scalar.zero : K) = 0 := Nat.cast_zero

@[simp] theorem one_eq : (Scalar.one : K) = 1 := Nat.cast_one

@[simp] theorem half_eq : (Scalar.half : K) = 1 / 2 := by
  show ((1 : Nat) : K) / ((2 : Nat) : K) = 1 / 2
  norm_num

instance lawfulBEq : LawfulBEq K where
  eq_of_beq := by
    intro a b same
    exact of_decide_eq_true same
  rfl := by
    intro a
    exact decide_eq_true rfl


/-! ## Intervals -/

theorem clamp_of_mem {x low high : K} (above : low ≤ x) (below : x ≤ high) :
    Scalar.clamp x low high = x := by
  rw [Scalar.clamp, if_neg, if_neg]
  · rw [lt_iff]
    exact not_lt.2 below
  · rw [lt_iff]
    exact not_lt.2 above

theorem clamp_eq {x low high : K} (inOrder : low ≤ high) :
    Scalar.clamp x low high = max low (min x high) := by
  simp only [Scalar.clamp, lt_iff]
  grind

/-- The two ways to move a number into an interval agree where the interval is not empty. -/
theorem minimum_maximum {x low high : K} (inOrder : low ≤ high) :
    Scalar.minimum (Scalar.maximum x low) high = Scalar.clamp x low high := by
  simp only [Scalar.minimum, Scalar.maximum, Scalar.clamp, isNaN_eq, Bool.false_or, lt_iff]
  by_cases below : x < low
  · rw [if_neg (not_lt.2 below.le), if_pos below]
    by_cases strict : low < high
    · rw [if_pos strict]
    · rw [if_neg strict]
      exact le_antisymm (not_lt.1 strict) inOrder
  · by_cases above : high < x
    · have largest : ¬(if low < x then x else low) < high := by
        rw [if_pos (inOrder.trans_lt above)]
        exact not_lt.2 above.le
      rw [if_neg largest, if_neg below, if_pos above]
    · rw [if_neg below, if_neg above]
      grind

end Exact

end MapStyle
