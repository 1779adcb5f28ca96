import MapStyle.Number.Machine

/-!
# The order of numbers

Stops of an interpolation are checked with one comparison and searched with another.
`Scalar.Ordered` is what ties the two together: it is about numbers that were written
in a text, because what is no number compares with nothing. Doubles have it because no
decimal literal rounds to what is no number. Depths are ordered by a third comparison, in
which all numbers have a place (`Scalar.Ranked`).
-/

namespace MapStyle

/-- Literals are comparable, and the strict order is transitive. -/
class Scalar.Ordered (α : Type) [Scalar α] : Prop where
  lt_trans {a b c : α} : Scalar.lt a b = true → Scalar.lt b c = true → Scalar.lt a c = true
  lt_of_not_le (d e : Decimal) :
    Scalar.le (Scalar.ofDecimal e : α) (Scalar.ofDecimal d) = false →
      Scalar.lt (Scalar.ofDecimal d : α) (Scalar.ofDecimal e) = true

/-- Numbers precede one another like whole numbers by which they are ranked. -/
class Scalar.Ranked (α : Type) [Scalar α] : Prop where
  exists_rank : ∃ rank : α → Int, ∀ a b : α, Scalar.precedes a b = decide (rank a < rank b)

namespace Format

theorem infinityCode_lt_signCode (f : Format) : f.infinityCode < f.signCode := by
  cases f <;> decide

theorem two_signCode (f : Format) : f.signCode + f.signCode = Nat.pow 2 f.width := by
  cases f <;> decide

theorem roundMagnitude_le (f : Format) (numerator denominator : Nat) :
    f.roundMagnitude numerator denominator ≤ f.infinityCode := by
  unfold roundMagnitude
  split
  · exact Nat.zero_le _
  · exact Nat.min_le_left _ _

end Format

namespace Binary

variable {f : Format}

theorem eq_of_code {x y : Binary f} (same : x.code = y.code) : x = y := by
  obtain ⟨c, small⟩ := x
  obtain ⟨d, small'⟩ := y
  cases same
  rfl

theorem code_signed {magnitude : Nat} (small : magnitude < f.signCode) (negative : Bool) :
    (signed negative magnitude : Binary f).code =
      (if negative then f.signCode else 0) + magnitude := by
  have bound : (if negative then f.signCode else 0) + magnitude < Nat.pow 2 f.width := by
    rw [← f.two_signCode]
    split <;> omega
  exact Nat.mod_eq_of_lt bound

theorem magnitude_signed {magnitude : Nat} (small : magnitude < f.signCode) (negative : Bool) :
    (signed negative magnitude : Binary f).magnitude = magnitude := by
  rw [Binary.magnitude, code_signed small]
  cases negative
  · simpa using Nat.mod_eq_of_lt small
  · simpa using Nat.mod_eq_of_lt small

theorem isNaN_signed {magnitude : Nat} (small : magnitude ≤ f.infinityCode) (negative : Bool) :
    (signed negative magnitude : Binary f).isNaN = false := by
  have bound := f.infinityCode_lt_signCode
  rw [isNaN, magnitude_signed (by omega)]
  simpa using small

theorem isNaN_ofRatio (negative : Bool) (numerator denominator : Nat) :
    (ofRatio negative numerator denominator : Binary f).isNaN = false :=
  isNaN_signed (f.roundMagnitude_le _ _) _

/-- No decimal literal rounds to what is no number. -/
theorem isNaN_ofDecimal (d : Decimal) : (ofDecimal d : Binary f).isNaN = false := by
  simp only [ofDecimal]
  split
  · exact isNaN_signed (Nat.zero_le _) _
  split
  · exact isNaN_signed (Nat.le_refl _) _
  split
  · exact isNaN_ofRatio _ _ _
  · exact isNaN_ofRatio _ _ _

theorem lt_trans {x y z : Binary f} (first : lt x y = true) (second : lt y z = true) :
    lt x z = true := by
  simp only [lt, Bool.and_eq_true, Bool.not_eq_true', decide_eq_true_eq] at first second ⊢
  exact ⟨⟨first.1.1, second.1.2⟩, Int.lt_trans first.2 second.2⟩

theorem lt_of_not_le {x y : Binary f} (number : x.isNaN = false) (other : y.isNaN = false)
    (above : le y x = false) : lt x y = true := by
  simp only [le, lt, number, other] at above ⊢
  simpa using above

instance : Scalar.Ordered Double where
  lt_trans := lt_trans
  lt_of_not_le d e := lt_of_not_le (isNaN_ofDecimal d) (isNaN_ofDecimal e)

instance : Scalar.Ranked Double where
  exists_rank := ⟨Binary.rank, fun _ _ => rfl⟩

end Binary

end MapStyle
