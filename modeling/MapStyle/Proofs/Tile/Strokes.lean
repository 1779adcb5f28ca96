import Mathlib
import MapStyle.Proofs.Number.Length
import MapStyle.Tile.Mesh

/-!
# Segments that are drawn

A stroke has a quad for every segment whose length is finite and not zero, and the length is that
of the machine. `Segment.Measured` says without a root when it is. Such a segment joins two finite
places that differ; the converse holds unless the places are very near or very far apart.
-/

namespace MapStyle

namespace Segment

open Binary

/-- How far a segment goes to the right. -/
def width (s : Segment Double) : Double := sub s.finish.x s.start.x

/-- How far a segment goes upwards. -/
def height (s : Segment Double) : Double := sub s.finish.y s.start.y

/-- The length of a segment, as a stroke works it out. -/
def length (s : Segment Double) : Double := sqrt (squaredLength s.width s.height)

/-- The machine can measure a segment. -/
structure Measured (s : Segment Double) : Prop where
  /-- One of the squares is more than half the least number, so that it does not vanish. -/
  seen : 2 ^ (Format.double.unitExponent - 1) < s.width.size ^ 2 ∨
    2 ^ (Format.double.unitExponent - 1) < s.height.size ^ 2
  /-- The sum of the squares is not beyond the greatest number. -/
  held : (squaredLength s.width s.height).isFinite = true

/-- Exactly the segments that the machine can measure have a length. -/
theorem measured_iff {s : Segment Double} :
    s.Measured ↔ s.length.isFinite = true ∧ s.length.magnitude ≠ 0 := by
  rw [length, length_iff]
  constructor
  · rintro ⟨seen, held⟩
    exact ⟨seen, held⟩
  · rintro ⟨seen, held⟩
    exact ⟨seen, held⟩

/-- Exactly the segments that the machine can measure have a quad. -/
theorem isSome_ofSegment? (words : List Single) (s : Segment Double) :
    (Piece.ofSegment? words s).isSome = true ↔ s.Measured := by
  have lost : (!s.length.isFinite || equal s.length (ofNat 0)) = true ↔ ¬s.Measured := by
    rw [Bool.or_eq_true, Bool.not_eq_true', equal_zero_iff, measured_iff, not_and_or,
      Bool.not_eq_true, not_not]
  simp only [Piece.ofSegment?]
  split
  next absent => exact iff_of_false Bool.false_ne_true (lost.1 absent)
  next present => exact iff_of_true rfl (not_not.1 fun unmeasured => present (lost.2 unmeasured))

/-! ## Places that differ -/

/-- What the machine can measure lies between finite places. -/
theorem Measured.isFinite {s : Segment Double} (measured : s.Measured) :
    s.start.isFinite = true ∧ s.finish.isFinite = true := by
  obtain ⟨first, second⟩ := isFinite_of_add measured.held
  obtain ⟨right, left⟩ := isFinite_of_sub (isFinite_of_mul first).1
  obtain ⟨top, bottom⟩ := isFinite_of_sub (isFinite_of_mul second).1
  exact ⟨Bool.and_eq_true_iff.2 ⟨left, bottom⟩, Bool.and_eq_true_iff.2 ⟨right, top⟩⟩

/-- What the machine can measure is no single place. -/
theorem Measured.isProper {s : Segment Double} (measured : s.Measured) : s.isProper = true := by
  obtain ⟨finite, finite'⟩ := measured.isFinite
  rw [Segment.isProper, finite, finite']
  obtain ⟨left, bottom⟩ := Bool.and_eq_true_iff.1 finite
  obtain ⟨right, top⟩ := Bool.and_eq_true_iff.1 finite'
  cases same : s.start == s.finish with
  | false => rw [bne, same]; rfl
  | true =>
    obtain ⟨sameX, sameY⟩ := Bool.and_eq_true_iff.1 same
    have narrow : s.width.size = 0 := by
      rw [size, width, magnitude_sub_of_equal left right sameX, Format.magnitudeValue_zero]
    have flat : s.height.size = 0 := by
      rw [size, height, magnitude_sub_of_equal bottom top sameY, Format.magnitudeValue_zero]
    have half : (0 : ℚ) < 2 ^ (Format.double.unitExponent - 1) := by positivity
    have seen := measured.seen
    rw [narrow, flat, or_self] at seen
    linarith

/-! ## Distances -/

/-- How far the places of a segment are apart, along the axis on which they are farther. -/
def reach (s : Segment Double) : ℚ :=
  max |s.finish.x.value - s.start.x.value| |s.finish.y.value - s.start.y.value|

theorem rounds_extents {s : Segment Double} (finite : s.start.isFinite = true)
    (finite' : s.finish.isFinite = true) :
    Format.double.Rounds |s.finish.x.value - s.start.x.value| s.width.magnitude ∧
      Format.double.Rounds |s.finish.y.value - s.start.y.value| s.height.magnitude := by
  obtain ⟨left, bottom⟩ := Bool.and_eq_true_iff.1 finite
  obtain ⟨right, top⟩ := Bool.and_eq_true_iff.1 finite'
  exact ⟨(rounds_sub right left).1, (rounds_sub top bottom).1⟩

/-- The machine can measure every distance between `2 ^ -537` and `2 ^ 511`. -/
theorem measured_of_reach {s : Segment Double} (proper : s.isProper = true)
    (least : 2 ^ (-537 : Int) ≤ s.reach) (most : s.reach ≤ 2 ^ (511 : Int)) : s.Measured := by
  obtain ⟨finite, -⟩ := Bool.and_eq_true_iff.1 proper
  obtain ⟨finite, finite'⟩ := Bool.and_eq_true_iff.1 finite
  obtain ⟨ofWidth, ofHeight⟩ := rounds_extents finite finite'
  obtain ⟨mostX, mostY⟩ := max_le_iff.1 most
  obtain ⟨wide, wideBound⟩ := le_two_pow ofWidth ⟨by decide, by decide⟩ mostX
  obtain ⟨high, highBound⟩ := le_two_pow ofHeight ⟨by decide, by decide⟩ mostY
  refine ⟨?_, isFinite_squaredLength wide high ⟨by decide, by decide⟩ ⟨by decide, by decide⟩
    wideBound highBound⟩
  -- The square of `2 ^ -537` is the least number.
  have square {extent : Double} (le : 2 ^ (-537 : Int) ≤ extent.size) :
      2 ^ (Format.double.unitExponent - 1) < extent.size ^ 2 := by
    calc (2 : ℚ) ^ (Format.double.unitExponent - 1) < 2 ^ (2 * (-537) : Int) :=
          zpow_lt_zpow_right₀ one_lt_two (by decide)
      _ = (2 ^ (-537 : Int)) ^ 2 := (two_pow_sq _).symm
      _ ≤ extent.size ^ 2 := pow_le_pow_left₀ (by positivity) le 2
  rcases le_max_iff.1 least with leastX | leastY
  · exact .inl (square (two_pow_le ofWidth ⟨by decide, by decide⟩ leastX))
  · exact .inr (square (two_pow_le ofHeight ⟨by decide, by decide⟩ leastY))

/-- Distances that are less by half, or greater by as much, are not measured. -/
theorem not_measured_of_reach {s : Segment Double}
    (outside : s.reach ≤ 2 ^ (-538 : Int) ∨ 2 ^ (512 : Int) ≤ s.reach) : ¬s.Measured := by
  intro measured
  obtain ⟨finite, finite'⟩ := measured.isFinite
  obtain ⟨ofWidth, ofHeight⟩ := rounds_extents finite finite'
  rcases outside with near | far
  · obtain ⟨nearX, nearY⟩ := max_le_iff.1 near
    have square {extent : Double} (le : extent.size ≤ 2 ^ (-538 : Int)) :
        ¬2 ^ (Format.double.unitExponent - 1) < extent.size ^ 2 := by
      refine not_lt.2 ?_
      calc extent.size ^ 2 ≤ (2 ^ (-538 : Int)) ^ 2 := pow_le_pow_left₀ extent.size_nonneg le 2
        _ = 2 ^ (2 * (-538) : Int) := two_pow_sq _
        _ ≤ 2 ^ (Format.double.unitExponent - 1) := zpow_le_zpow_right₀ one_le_two (by decide)
    rcases measured.seen with seen | seen
    · exact square (le_two_pow ofWidth ⟨by decide, by decide⟩ nearX).2 seen
    · exact square (le_two_pow ofHeight ⟨by decide, by decide⟩ nearY).2 seen
  · have square {extent : Double} (le : 2 ^ (512 : Int) ≤ extent.size)
        (finite : (mul extent extent).isFinite = true) : False := by
      have rounds := (rounded_square (isFinite_of_mul finite).1).rounds
      have infinite : Format.double.Rounds (2 ^ (2 * 512 : Int)) Format.double.infinityCode :=
        Format.rounds_infinityCode (by decide)
      have beyond : Format.double.infinityCode ≤ (mul extent extent).magnitude := by
        refine infinite.mono rounds ?_
        rw [← two_pow_sq]
        exact pow_le_pow_left₀ (by positivity) le 2
      exact not_lt.2 beyond (of_decide_eq_true finite)
    obtain ⟨first, second⟩ := isFinite_of_add measured.held
    rcases le_max_iff.1 far with farX | farY
    · exact square (two_pow_le ofWidth ⟨by decide, by decide⟩ farX) first
    · exact square (two_pow_le ofHeight ⟨by decide, by decide⟩ farY) second

end Segment

end MapStyle
