import Mathlib
import MapStyle.Proofs.Number.Value

/-!
# Intervals of finite numbers

A number is moved into an interval by comparing places, and measured from its low end by a
subtraction that may overflow. The quotient of that distance and the extent of the interval is
between zero and one whenever the distance is finite, whether the extent is finite or not.
-/

namespace MapStyle

namespace Format

theorem one_lt (f : Format) : 1 < 2 * f.fractionCodes := by cases f <;> decide

theorem infinityCode_pos (f : Format) : 0 < f.infinityCode := by cases f <;> decide

end Format

namespace Binary

variable {f g : Format}

/-! ## Moving into an interval -/

/-- A number moved into an interval by its place, as `Scalar.clamp` moves it. -/
def moved (x low high : Binary f) : Binary f :=
  if lt x low then low else if lt high x then high else x

theorem key_moved {x low high : Binary f} (number : x.isNaN = false) (low' : low.isNaN = false)
    (high' : high.isNaN = false) (inOrder : low.key ≤ high.key) :
    (moved x low high).isNaN = false ∧ low.key ≤ (moved x low high).key ∧
      (moved x low high).key ≤ high.key := by
  simp only [moved, lt, number, low', high', Bool.not_false, Bool.true_and, decide_eq_true_eq]
  split_ifs with below above
  · exact ⟨low', le_rfl, inOrder⟩
  · exact ⟨high', inOrder, le_rfl⟩
  · exact ⟨number, not_lt.1 below, not_lt.1 above⟩

/-- What is no number is moved nowhere. -/
theorem moved_nan {x low high : Binary f} (none : x.isNaN = true) : moved x low high = x := by
  simp only [moved, lt, none, Bool.not_true, Bool.and_false, Bool.false_and, Bool.false_eq_true,
    if_false]

/-- A number whose place is not below zero is its size, also where it is written as less. -/
theorem key_nonneg {x : Binary f} (least : 0 ≤ x.key) :
    (x.isNegative = true → x.magnitude = 0) ∧ x.key = x.magnitude := by
  unfold key at least ⊢
  split
  next negative =>
    rw [if_pos negative] at least
    omega
  next positive => exact ⟨fun negative => absurd negative positive, rfl⟩

theorem natAbs_key (x : Binary f) : x.key.natAbs = x.magnitude := by
  unfold key
  split <;> omega

/-- A number is moved into a range exactly where it is none or outside. -/
theorem not_equal_moved {x low high : Binary f} (apart : lt low high = true) :
    (!equal (moved x low high) x) = (x.isNaN || lt x low || lt high x) := by
  simp only [lt, Bool.and_eq_true, Bool.not_eq_true', decide_eq_true_eq] at apart
  obtain ⟨⟨low', high'⟩, less⟩ := apart
  cases number : x.isNaN with
  | true => rw [moved_nan number, equal, number]; rfl
  | false =>
    simp only [moved, lt, equal, number, low', high', Bool.not_false, Bool.true_and, Bool.false_or,
      decide_eq_true_eq]
    split_ifs with below above
    · simp [low', below, below.ne']
    · simp [high', above, above.ne, below]
    · simp [number, above, below]

/-! ## Between zero and one -/

/-- A number is written between zero and one. -/
structure Within (x : Binary f) : Prop where
  sign : x.isNegative = true → x.magnitude = 0
  most : x.magnitude ≤ (ofNat 1 : Binary f).magnitude

theorem Within.isFinite {x : Binary f} (within : x.Within) : x.isFinite = true := by
  refine decide_eq_true (within.most.trans_lt ?_)
  exact of_decide_eq_true (value_ofNat f.one_lt).1

theorem Within.size_le_one {x : Binary f} (within : x.Within) : x.size ≤ 1 := by
  have bound := (size_le within.most).trans_eq (size_ofNat f.one_lt)
  rwa [Nat.cast_one] at bound

theorem Within.value_mem {x : Binary f} (within : x.Within) : 0 ≤ x.value ∧ x.value ≤ 1 := by
  rw [value_of_nonneg within.isFinite within.sign]
  exact ⟨x.size_nonneg, within.size_le_one⟩

/-- What a ratio between zero and one is rounded to. -/
theorem Rounded.within {x : Binary f} {negative : Bool} {q : ℚ} (rounded : x.Rounded negative q)
    (le : q ≤ 1) (sign : negative = true → q = 0) : x.Within where
  sign below := by
    have none := sign (rounded.sign.symm.trans below)
    have least := rounded.rounds.mono (f.rounds_natCast 0) (by rw [none, Nat.cast_zero])
    exact Nat.eq_zero_of_le_zero least
  most := rounded.rounds.mono (rounded_ofNat 1).rounds (by rwa [Nat.cast_one])

theorem size_of_sign {x : Binary f} (sign : x.isNegative = true → x.magnitude = 0)
    (negative : x.isNegative = true) : x.size = 0 := by
  rw [size, sign negative, f.magnitudeValue_zero]

theorem Within.convert {x : Binary f} (within : x.Within) : (convert x : Binary g).Within :=
  (rounded_convert within.isFinite).within within.size_le_one (size_of_sign within.sign)

/-- A quotient by what is not less is between zero and one. -/
theorem within_div {x y : Binary f} (finite : x.isFinite = true)
    (sign : x.isNegative = true → x.magnitude = 0) (sign' : y.isNegative = true → y.magnitude = 0)
    (number : y.isNaN = false) (pos : 0 < y.magnitude) (le : x.magnitude ≤ y.magnitude) :
    (div x y).Within := by
  have positive : y.isNegative = false := by
    by_contra negative
    have := sign' (Bool.eq_true_of_not_eq_false negative)
    omega
  cases finite' : y.isFinite with
  | false =>
    -- A finite distance vanishes against an infinite extent.
    have none : (div x y).magnitude = 0 := by
      rw [div_infinite finite finite' number]
      exact magnitude_signed (Nat.two_pow_pos _) _
    exact ⟨fun _ => none, none ▸ Nat.zero_le _⟩
  | true =>
    have nonzero : 0 < y.size := by
      rw [← f.magnitudeValue_zero]
      exact f.magnitudeValue_strictMono pos
    have quotient := rounded_div finite finite' nonzero
    rw [positive, Bool.bne_false] at quotient
    refine quotient.within ?_ fun negative => ?_
    · exact (div_le_one nonzero).2 (size_le le)
    · rw [size_of_sign sign negative, zero_div]

/-! ## Places in an interval -/

/-- The extent of a range that starts at a finite number. It may be infinite. -/
theorem extent {low high : Binary f} (apart : lt low high = true) (finite : low.isFinite = true) :
    (sub high low).isNaN = false ∧ 0 < (sub high low).magnitude ∧
      ((sub high low).isNegative = true → (sub high low).magnitude = 0) ∧
      ∀ {x : Binary f}, x.isFinite = true → low.key ≤ x.key → x.key ≤ high.key →
        (sub x low).magnitude ≤ (sub high low).magnitude := by
  simp only [lt, Bool.and_eq_true, Bool.not_eq_true', decide_eq_true_eq] at apart
  obtain ⟨⟨low', high'⟩, less⟩ := apart
  cases finite' : high.isFinite with
  | true =>
    have step := value_add_le finite finite' less
    have least : (0 : ℚ) < 2 ^ f.unitExponent := by positivity
    obtain ⟨rounds, sign⟩ := rounded_sub finite' finite (by linarith)
    have positive := f.rounds_least.mono rounds (by linarith)
    refine ⟨?_, positive, sign, fun {x} isFinite above below => ?_⟩
    · rw [isNaN, decide_eq_false (Nat.not_lt.2 rounds.le_infinityCode)]
    · have le := (value_le_iff finite isFinite).2 above
      have le' := (value_le_iff isFinite finite').2 below
      exact (rounded_sub isFinite finite le).1.mono rounds (by linarith)
  | false =>
    -- The extent of a range without an end is that end, and no distance is greater.
    obtain ⟨none, -⟩ | ⟨-, parts⟩ := unpack_of_not_finite finite'
    · rw [high'] at none
      cases none
    obtain ⟨m, e, parts', -⟩ := exists_unpack ((isFinite_neg low).trans finite)
    have whole : sub high low = high := by
      simp only [sub, high', low', Bool.false_eq_true, if_false, add, parts, parts']
    have top : high.magnitude = f.infinityCode := by
      have least := of_decide_eq_false finite'
      have most := of_decide_eq_false high'
      omega
    have positive : high.isNegative = false := by
      by_contra negative
      have bound := of_decide_eq_true finite
      rw [key, key, if_pos (Bool.eq_true_of_not_eq_false negative)] at less
      split at less <;> omega
    rw [whole, top, positive]
    refine ⟨high', f.infinityCode_pos, fun negative => absurd negative Bool.false_ne_true,
      fun {x} isFinite above _ => ?_⟩
    exact (rounded_sub isFinite finite ((value_le_iff finite isFinite).2 above)).1.le_infinityCode

/-- A number that has a finite distance from the low end has a place between zero and one. -/
theorem within_place {x low high : Binary f} (apart : lt low high = true)
    (finite : (sub (moved x low high) low).isFinite = true) :
    (div (sub (moved x low high) low) (sub high low)).Within := by
  obtain ⟨inside, first⟩ := isFinite_of_sub finite
  have number : x.isNaN = false := by
    by_contra none
    have none := Bool.eq_true_of_not_eq_false none
    rw [moved_nan none] at inside
    rw [isNaN_of_isFinite inside] at none
    cases none
  have inOrder := apart
  simp only [lt, Bool.and_eq_true, Bool.not_eq_true', decide_eq_true_eq] at inOrder
  obtain ⟨⟨low', high'⟩, less⟩ := inOrder
  obtain ⟨-, above, below⟩ := key_moved number low' high' less.le
  obtain ⟨isNumber, positive, sign, le⟩ := extent apart first
  have difference := rounded_sub inside first ((value_le_iff first inside).2 above)
  exact within_div finite difference.2 sign isNumber positive (le inside above below)

/-- A number between finite ones is finite. -/
theorem isFinite_of_between {x low high : Binary f} (finite : low.isFinite = true)
    (finite' : high.isFinite = true) (above : low.key ≤ x.key) (below : x.key ≤ high.key) :
    x.isFinite = true := by
  have bound := of_decide_eq_true finite
  have bound' := of_decide_eq_true finite'
  rw [← natAbs_key] at bound bound'
  refine decide_eq_true ?_
  rw [← natAbs_key]
  omega

/-- In a range of finite extent every number has a place. -/
theorem isFinite_place {x low high : Binary f} (apart : lt low high = true)
    (finite : (sub high low).isFinite = true) (number : x.isNaN = false) :
    (sub (moved x low high) low).isFinite = true := by
  obtain ⟨last, first⟩ := isFinite_of_sub finite
  obtain ⟨-, -, -, le⟩ := extent apart first
  simp only [lt, Bool.and_eq_true, Bool.not_eq_true', decide_eq_true_eq] at apart
  obtain ⟨-, above, below⟩ := key_moved number apart.1.1 apart.1.2 apart.2.le
  have inside := isFinite_of_between first last above below
  exact decide_eq_true ((le inside above below).trans_lt (of_decide_eq_true finite))

end Binary

end MapStyle
