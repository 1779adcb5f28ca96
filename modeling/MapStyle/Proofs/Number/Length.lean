import Mathlib
import MapStyle.Proofs.Number.Interval

/-!
# Lengths

A length is the root of a sum of squares. The root is worked out bit by bit and is within a
factor of two of the exact one before it is rounded, so that it is finite and not zero exactly
where the sum is. The squares are not so harmless: a square of at most half the least number
vanishes, and the sum of squares may be beyond the greatest number.
-/

namespace MapStyle

namespace Binary

variable {f : Format}

/-! ## Roots -/

/-- Binary digits of the root are binary digits of pairs. -/
theorem rootOf_eq_sqrt {digits n : Nat} (small : n < 4 ^ digits) : rootOf digits n = n.sqrt := by
  induction digits generalizing n with
  | zero =>
    obtain rfl : n = 0 := by omega
    rfl
  | succ digits ih =>
    have quarter : n / 4 < 4 ^ digits := by
      rw [pow_succ] at small
      omega
    have lower := Nat.sqrt_le (n / 4)
    have upper := Nat.lt_succ_sqrt (n / 4)
    rw [rootOf, ih quarter]
    generalize (n / 4).sqrt = root at lower upper ⊢
    rw [Nat.succ_eq_add_one] at upper
    rw [Nat.eq_sqrt]
    split
    next fits =>
      refine ⟨fits, ?_⟩
      have wider : (2 * root + 1 + 1) * (2 * root + 1 + 1) = 4 * ((root + 1) * (root + 1)) := by
        ring
      omega
    next exceeds =>
      refine ⟨?_, not_le.1 exceeds⟩
      have doubled : 2 * root * (2 * root) = 4 * (root * root) := by ring
      omega

theorem lt_four_pow_log2 (n : Nat) : n < 4 ^ (n.log2 / 2 + 1) := by
  calc n < 2 ^ (n.log2 + 1) := Nat.lt_log2_self
    _ ≤ 2 ^ (2 * (n.log2 / 2 + 1)) := Nat.pow_le_pow_right two_pos (by omega)
    _ = 4 ^ (n.log2 / 2 + 1) := pow_mul 2 2 _

/-- A number that is not zero is at least the least one. -/
theorem least_le_size {x : Binary f} (nonzero : x.magnitude ≠ 0) : 2 ^ f.unitExponent ≤ x.size := by
  calc (2 : ℚ) ^ f.unitExponent = f.magnitudeValue 0 + 2 ^ f.unitExponent := by
        rw [f.magnitudeValue_zero, zero_add]
    _ ≤ f.magnitudeValue 1 := f.magnitudeValue_succ 0
    _ ≤ x.size := f.magnitudeValue_strictMono.monotone (Nat.one_le_iff_ne_zero.2 nonzero)

/-- What is rounded when the root of a number is taken is within a factor of two of the root. -/
theorem exists_rounded_sqrt {x : Binary f} (finite : x.isFinite = true)
    (sign : x.isNegative = false) (nonzero : x.magnitude ≠ 0) :
    ∃ root : ℚ, 0 ≤ root ∧ (sqrt x).Rounded false root ∧
      root ^ 2 ≤ 4 * x.size ∧ x.size ≤ 4 * root ^ 2 := by
  obtain ⟨m, e, parts, sized⟩ := exists_unpack finite
  have pos : 0 < m := by
    refine Nat.pos_of_ne_zero fun none => ?_
    have least := least_le_size nonzero
    rw [← sized, none, Nat.cast_zero, zero_mul] at least
    exact absurd least (not_le.2 (by positivity))
  simp only [sqrt, parts, if_neg pos.ne', sign, Bool.false_eq_true, if_false]
  -- The exponent that is left is even.
  obtain ⟨half, even⟩ : ∃ half, e = ((2 * f.precision + 4 + (e % 2).toNat : Nat) : Int) +
      2 * half := ⟨e / 2 - f.precision - 2, by omega⟩
  generalize 2 * f.precision + 4 + (e % 2).toNat = shift at even ⊢
  have exponent : (e - shift) / 2 - 1 = half - 1 := by omega
  rw [rootOf_eq_sqrt (lt_four_pow_log2 _), exponent]
  have sized : ((m * Nat.pow 2 shift : Nat) : ℚ) * 2 ^ (2 * half) = x.size := by
    rw [← sized, even, zpow_add₀ two_ne_zero, zpow_natCast, Nat.pow_eq]
    push_cast
    ring
  have positive : 0 < m * Nat.pow 2 shift := Nat.mul_pos pos (Nat.two_pow_pos _)
  generalize m * Nat.pow 2 shift = radicand at sized positive ⊢
  have lower := Nat.sqrt_le radicand
  have upper := Nat.lt_succ_sqrt radicand
  have one_le : 1 ≤ radicand.sqrt := Nat.sqrt_pos.2 positive
  rw [Nat.succ_eq_add_one] at upper
  obtain ⟨sticky, bit, same⟩ : ∃ sticky ≤ 1,
      (if radicand.sqrt * radicand.sqrt = radicand then 0 else 1) = sticky := by
    refine ⟨_, ?_, rfl⟩
    split <;> omega
  rw [same]
  generalize radicand.sqrt = root at lower upper one_le ⊢
  refine ⟨_, by positivity, rounded_ofScaled false (2 * root + sticky) (half - 1), ?_⟩
  have scale : ((2 * root + sticky : Nat) * (2 : ℚ) ^ (half - 1)) ^ 2 =
      ((2 * root + sticky) ^ 2 : Nat) / 4 * 2 ^ (2 * half) := by
    rw [zpow_sub_one₀ two_ne_zero, mul_comm 2 half, zpow_mul, zpow_ofNat]
    push_cast
    ring
  have positive : (0 : ℚ) < 2 ^ (2 * half) := by positivity
  have most : (2 * root + sticky) ^ 2 ≤ 16 * radicand := by nlinarith
  have least : radicand ≤ (2 * root + sticky) ^ 2 := by nlinarith
  have most : (((2 * root + sticky) ^ 2 : Nat) : ℚ) ≤ 16 * radicand := by exact_mod_cast most
  have least : (radicand : ℚ) ≤ ((2 * root + sticky) ^ 2 : Nat) := by exact_mod_cast least
  rw [scale, ← sized]
  constructor
  · linarith [mul_le_mul_of_nonneg_right most positive.le]
  · linarith [mul_le_mul_of_nonneg_right least positive.le]

theorem isFinite_of_sqrt {x : Binary f} (finite : (sqrt x).isFinite = true) :
    x.isFinite = true := by
  by_contra infinite
  have infinite := Bool.eq_false_iff.2 infinite
  refine Bool.eq_false_iff.1 ?_ finite
  rcases unpack_of_not_finite infinite with ⟨-, parts⟩ | ⟨-, parts⟩
  · simpa only [sqrt, parts] using infinite
  · simp only [sqrt, parts]
    split
    · exact isFinite_invalid
    · exact infinite

theorem sqrt_of_magnitude {x : Binary f} (none : x.magnitude = 0) : sqrt x = x := by
  have finite : x.isFinite = true := decide_eq_true (none ▸ f.infinityCode_pos)
  obtain ⟨m, e, parts, sized⟩ := exists_unpack finite
  rw [size, none, f.magnitudeValue_zero] at sized
  obtain rfl : m = 0 := by
    have := (mul_eq_zero.1 sized).resolve_right (by positivity)
    exact_mod_cast this
  simp only [sqrt, parts, if_true]

/-- The root of a positive finite number is one itself. -/
theorem sqrt_pos {x : Binary f} (finite : x.isFinite = true) (sign : x.isNegative = false)
    (nonzero : x.magnitude ≠ 0) : (sqrt x).isFinite = true ∧ (sqrt x).magnitude ≠ 0 := by
  obtain ⟨root, nonneg, ⟨-, rounds⟩, most, least⟩ := exists_rounded_sqrt finite sign nonzero
  constructor
  · -- The root is no greater than the greatest number.
    have last : f.infinityCode - 1 < f.infinityCode := Nat.sub_one_lt_of_lt f.infinityCode_pos
    have greatest {y : Binary f} (finite : y.isFinite = true) :
        y.size ≤ f.magnitudeValue (f.infinityCode - 1) :=
      f.magnitudeValue_strictMono.monotone (Nat.le_sub_one_of_lt (of_decide_eq_true finite))
    have four : (4 : ℚ) ≤ f.magnitudeValue (f.infinityCode - 1) := by
      have small : 4 < 2 * f.fractionCodes := by cases f <;> decide
      have bound := greatest (value_ofNat (f := f) small).1
      rw [size_ofNat small] at bound
      exact_mod_cast bound
    have bound := greatest finite
    have le : root ≤ f.magnitudeValue (f.infinityCode - 1) :=
      le_of_sq_le_sq (by nlinarith) (by linarith)
    exact decide_eq_true ((rounds.mono (Format.rounds_magnitudeValue last) le).trans_lt last)
  · have size := least_le_size nonzero
    have small : (2 : ℚ) ^ f.unitExponent ≤ 1 / 4 := by
      calc (2 : ℚ) ^ f.unitExponent ≤ 2 ^ (-2 : Int) :=
            zpow_le_zpow_right₀ one_le_two (by cases f <;> decide)
        _ = 1 / 4 := by norm_num
    have positive : (0 : ℚ) < 2 ^ f.unitExponent := by positivity
    have le : (2 : ℚ) ^ f.unitExponent ≤ root := le_of_sq_le_sq (by nlinarith) nonneg
    exact Nat.one_le_iff_ne_zero.1 (f.rounds_least.mono rounds le)

/-! ## Powers of two -/

/-- Nothing is rounded beyond a power of two. -/
theorem le_two_pow {x : Binary f} {q : ℚ} (rounds : f.Rounds q x.magnitude) {exponent : Int}
    (power : f.HasPower exponent) (le : q ≤ 2 ^ exponent) :
    x.isFinite = true ∧ x.size ≤ 2 ^ exponent := by
  obtain ⟨bound, finite, same⟩ := power.exists_magnitude
  rw [← same] at le ⊢
  have most := rounds.mono (Format.rounds_magnitudeValue finite) le
  exact ⟨decide_eq_true (most.trans_lt finite), f.magnitudeValue_strictMono.monotone most⟩

theorem two_pow_le {x : Binary f} {q : ℚ} (rounds : f.Rounds q x.magnitude) {exponent : Int}
    (power : f.HasPower exponent) (le : 2 ^ exponent ≤ q) : 2 ^ exponent ≤ x.size := by
  obtain ⟨bound, finite, same⟩ := power.exists_magnitude
  rw [← same] at le ⊢
  exact f.magnitudeValue_strictMono.monotone ((Format.rounds_magnitudeValue finite).mono rounds le)

/-! ## Squares -/

theorem rounded_square {x : Binary f} (finite : x.isFinite = true) :
    (mul x x).Rounded false (x.size ^ 2) := by
  have product := rounded_mul finite finite
  rwa [bne_self_eq_false, ← sq] at product

/-- A sum of numbers that are not negative vanishes only where both of them do. -/
theorem magnitude_add_eq_zero {x y : Binary f} (finite : x.isFinite = true)
    (finite' : y.isFinite = true) (sign : x.isNegative = false) (sign' : y.isNegative = false) :
    (add x y).magnitude = 0 ↔ x.magnitude = 0 ∧ y.magnitude = 0 := by
  have value : x.value = x.size := by rw [value_eq finite, sign]; rfl
  have value' : y.value = y.size := by rw [value_eq finite', sign']; rfl
  have nonneg := x.size_nonneg
  have nonneg' := y.size_nonneg
  obtain ⟨rounds, -⟩ := rounded_add finite finite' (by linarith)
  rw [rounds.eq_zero_iff, value, value']
  have half : (2 : ℚ) ^ (f.unitExponent - 1) < 2 ^ f.unitExponent :=
    zpow_lt_zpow_right₀ one_lt_two (by omega)
  constructor
  · intro le
    refine ⟨?_, ?_⟩
    · by_contra nonzero
      linarith [least_le_size nonzero]
    · by_contra nonzero
      linarith [least_le_size nonzero]
  · rintro ⟨none, none'⟩
    rw [size, size, none, none', f.magnitudeValue_zero, add_zero]
    positivity

/-- The square of the length of a vector. -/
def squaredLength (x y : Binary f) : Binary f := add (mul x x) (mul y y)

/-- A vector has a length unless the squares of both its parts vanish, or their sum is beyond the
greatest number. -/
theorem length_iff {x y : Binary f} :
    ((sqrt (squaredLength x y)).isFinite = true ∧ (sqrt (squaredLength x y)).magnitude ≠ 0) ↔
      (2 ^ (f.unitExponent - 1) < x.size ^ 2 ∨ 2 ^ (f.unitExponent - 1) < y.size ^ 2) ∧
        (squaredLength x y).isFinite = true := by
  -- Where the sum is finite its terms are, and so are the factors of them.
  have parts (finite : (squaredLength x y).isFinite = true) :
      ((squaredLength x y).magnitude ≠ 0 ↔ 2 ^ (f.unitExponent - 1) < x.size ^ 2 ∨
        2 ^ (f.unitExponent - 1) < y.size ^ 2) ∧
      ((squaredLength x y).isNegative = true → (squaredLength x y).magnitude = 0) := by
    obtain ⟨first, second⟩ := isFinite_of_add finite
    obtain ⟨sign, rounds⟩ := rounded_square (isFinite_of_mul first).1
    obtain ⟨sign', rounds'⟩ := rounded_square (isFinite_of_mul second).1
    have nonneg : 0 ≤ (mul x x).value + (mul y y).value := by
      rw [value_eq first, value_eq second, sign, sign']
      exact add_nonneg (size_nonneg _) (size_nonneg _)
    refine ⟨?_, (rounded_add first second nonneg).2⟩
    rw [squaredLength, ne_eq, magnitude_add_eq_zero first second sign sign', rounds.eq_zero_iff,
      rounds'.eq_zero_iff, not_and_or, not_le, not_le]
  constructor
  · rintro ⟨finite, nonzero⟩
    have finite := isFinite_of_sqrt finite
    refine ⟨(parts finite).1.1 fun none => nonzero ?_, finite⟩
    rw [sqrt_of_magnitude none, none]
  · rintro ⟨seen, finite⟩
    have nonzero := (parts finite).1.2 seen
    refine sqrt_pos finite ?_ nonzero
    by_contra negative
    exact nonzero ((parts finite).2 (Bool.eq_true_of_not_eq_false negative))

theorem two_pow_sq (exponent : Int) : ((2 : ℚ) ^ exponent) ^ 2 = 2 ^ (2 * exponent) := by
  rw [mul_comm, zpow_mul, zpow_ofNat]

/-- The squares of parts that are not too great are finite, and so is their sum. -/
theorem isFinite_squaredLength {x y : Binary f} (finite : x.isFinite = true)
    (finite' : y.isFinite = true) {exponent : Int} (power : f.HasPower (2 * exponent))
    (power' : f.HasPower (2 * exponent + 1)) (le : x.size ≤ 2 ^ exponent)
    (le' : y.size ≤ 2 ^ exponent) : (squaredLength x y).isFinite = true := by
  have square {z : Binary f} (finite : z.isFinite = true) (le : z.size ≤ 2 ^ exponent) :
      (mul z z).isFinite = true ∧ 0 ≤ (mul z z).value ∧ (mul z z).value ≤ 2 ^ (2 * exponent) := by
    obtain ⟨sign, rounds⟩ := rounded_square finite
    have bound : z.size ^ 2 ≤ 2 ^ (2 * exponent) := by
      rw [← two_pow_sq]
      exact pow_le_pow_left₀ z.size_nonneg le 2
    obtain ⟨product, most⟩ := le_two_pow rounds power bound
    have value : (mul z z).value = (mul z z).size := by rw [value_eq product, sign]; rfl
    rw [value]
    exact ⟨product, size_nonneg _, most⟩
  obtain ⟨first, least, most⟩ := square finite le
  obtain ⟨second, least', most'⟩ := square finite' le'
  have sum := (rounded_add first second (by linarith)).1
  refine (le_two_pow sum power' ?_).1
  rw [zpow_add_one₀ two_ne_zero]
  linarith

end Binary

end MapStyle
