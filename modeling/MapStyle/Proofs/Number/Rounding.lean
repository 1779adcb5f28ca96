import Mathlib
import MapStyle.Proofs.Number.Order

/-!
# Rounding

A fraction is rounded in two steps: its binade gives the unit in the last place, and the number
of units is rounded to the nearest natural number, of two nearest to the even one. Both steps
depend on nothing but the ratio and are monotone in it, and so is the code that is put together
from them. Nothing here is about signs; a magnitude is a code without one.
-/

namespace MapStyle

namespace Format

/-! ## The nearest natural number -/

/-- The natural number nearest to a ratio, of two nearest the even one. -/
def halfEven (q : ℚ) : Nat :=
  if q - ⌊q⌋₊ < 1 / 2 ∨ (q - ⌊q⌋₊ = 1 / 2 ∧ ⌊q⌋₊ % 2 = 0) then ⌊q⌋₊ else ⌊q⌋₊ + 1

theorem divideToEven_eq (numerator : Nat) {denominator : Nat} (pos : 0 < denominator) :
    divideToEven numerator denominator = halfEven (numerator / denominator) := by
  have floor : ⌊(numerator : ℚ) / denominator⌋₊ = numerator / denominator :=
    Nat.floor_div_eq_div _ _
  have positive : (0 : ℚ) < denominator := by exact_mod_cast pos
  have rest : (numerator : ℚ) / denominator - (numerator / denominator : Nat) =
      (numerator % denominator : Nat) / denominator := by
    have split : (denominator : ℚ) * (numerator / denominator : Nat) +
        (numerator % denominator : Nat) = numerator := by
      exact_mod_cast Nat.div_add_mod numerator denominator
    rw [eq_div_iff positive.ne', sub_mul, div_mul_cancel₀ _ positive.ne']
    linarith
  have below : ((numerator % denominator : Nat) : ℚ) / denominator < 1 / 2 ↔
      2 * (numerator % denominator) < denominator := by
    rw [div_lt_div_iff₀ positive two_pos, one_mul, mul_comm]
    exact_mod_cast Iff.rfl
  have tie : ((numerator % denominator : Nat) : ℚ) / denominator = 1 / 2 ↔
      2 * (numerator % denominator) = denominator := by
    rw [div_eq_div_iff positive.ne' two_ne_zero, one_mul, mul_comm]
    exact_mod_cast Iff.rfl
  simp only [divideToEven, halfEven, floor, rest, below, tie]

theorem floor_le_halfEven (q : ℚ) : ⌊q⌋₊ ≤ halfEven q := by
  unfold halfEven
  split <;> omega

theorem halfEven_le_floor_succ (q : ℚ) : halfEven q ≤ ⌊q⌋₊ + 1 := by
  unfold halfEven
  split <;> omega

theorem halfEven_mono {q r : ℚ} (le : q ≤ r) : halfEven q ≤ halfEven r := by
  rcases (Nat.floor_mono le).lt_or_eq with less | same
  · exact (halfEven_le_floor_succ q).trans ((Nat.succ_le_of_lt less).trans (floor_le_halfEven r))
  · -- With one whole part, rounding up the lesser ratio rounds up the greater one too.
    unfold halfEven
    rw [same]
    have rest : q - ⌊r⌋₊ ≤ r - ⌊r⌋₊ := by linarith
    split_ifs with down up
    · exact le_rfl
    · omega
    next up =>
      refine absurd ?_ down
      rcases up with below | ⟨tie, even⟩
      · exact .inl (rest.trans_lt below)
      · exact (rest.trans_eq tie).lt_or_eq.imp_right fun tie => ⟨tie, even⟩
    · exact le_rfl

theorem halfEven_natCast (n : Nat) : halfEven n = n := by
  rw [halfEven, Nat.floor_natCast, if_pos]
  rw [sub_self]
  norm_num

/-- A fraction of one is rounded down as far as the middle. -/
theorem halfEven_eq_zero_iff {q : ℚ} (below : q < 1) : halfEven q = 0 ↔ q ≤ 1 / 2 := by
  have whole : ⌊q⌋₊ = 0 := Nat.floor_eq_zero.2 below
  rw [halfEven, whole, Nat.cast_zero, sub_zero]
  split
  next down => exact iff_of_true rfl (down.elim le_of_lt fun tie => tie.1.le)
  next up => exact iff_of_false one_ne_zero fun le => up (le.lt_or_eq.imp_right (⟨·, rfl⟩))

/-! ## Binades -/

theorem scaled_snd_pos (numerator : Nat) {denominator : Nat} (pos : 0 < denominator)
    (exponent : Int) : 0 < (scaled numerator denominator exponent).2 := by
  unfold scaled
  split
  · exact pos
  · exact Nat.mul_pos pos (Nat.two_pow_pos _)

theorem scaled_ratio (numerator denominator : Nat) (exponent : Int) :
    ((scaled numerator denominator exponent).1 : ℚ) / (scaled numerator denominator exponent).2 =
      numerator / denominator * 2 ^ exponent := by
  unfold scaled
  split
  next nonneg =>
    obtain ⟨k, rfl⟩ := Int.eq_ofNat_of_zero_le nonneg
    simp only [Int.toNat_natCast, Nat.pow_eq, Nat.cast_mul, Nat.cast_pow, Nat.cast_ofNat,
      zpow_natCast]
    ring
  next negative =>
    obtain ⟨k, same⟩ := Int.eq_ofNat_of_zero_le (a := -exponent) (by omega)
    have opposite : exponent = -(k : Int) := by omega
    simp only [opposite, neg_neg, Int.toNat_natCast, Nat.pow_eq, Nat.cast_mul, Nat.cast_pow,
      Nat.cast_ofNat, zpow_neg, zpow_natCast]
    rw [div_mul_eq_div_div, div_eq_mul_inv _ ((2 : ℚ) ^ k)]

variable {f : Format}

theorem fractionCodes_pos (f : Format) : 0 < f.fractionCodes := Nat.two_pow_pos _

theorem fractionCodes_cast (f : Format) :
    (f.fractionCodes : ℚ) = 2 ^ ((f.precision - 1 : Nat) : Int) := by
  rw [fractionCodes, Nat.pow_eq, Nat.cast_pow, Nat.cast_ofNat, zpow_natCast]

/-- A unit is that of the binade of a ratio: the ratio has fewer than `2 ^ precision` units, and
at least half as many unless the unit is the least there is. -/
structure UnitFor (f : Format) (q : ℚ) (unit : Int) : Prop where
  least : f.unitExponent ≤ unit
  below : q * 2 ^ (-unit) < 2 * f.fractionCodes
  full : f.unitExponent < unit → (f.fractionCodes : ℚ) ≤ q * 2 ^ (-unit)

/-- The bit lengths bound a ratio within two binades. -/
theorem ratio_bounds {numerator denominator : Nat} (pos : 0 < numerator) (pos' : 0 < denominator) :
    (2 : ℚ) ^ ((numerator.log2 : Int) - denominator.log2 - 1) < numerator / denominator ∧
      (numerator : ℚ) / denominator < 2 ^ ((numerator.log2 : Int) - denominator.log2 + 1) := by
  have lower (n : Nat) (pos : 0 < n) : (2 : ℚ) ^ (n.log2 : Int) ≤ n := by
    rw [zpow_natCast]
    exact_mod_cast Nat.log2_self_le pos.ne'
  have upper (n : Nat) : (n : ℚ) < 2 ^ ((n.log2 : Int) + 1) := by
    rw [← Nat.cast_succ, zpow_natCast]
    exact_mod_cast Nat.lt_log2_self
  have positive : (0 : ℚ) < denominator := by exact_mod_cast pos'
  constructor
  · rw [lt_div_iff₀ positive]
    calc (2 : ℚ) ^ ((numerator.log2 : Int) - denominator.log2 - 1) * denominator
        < 2 ^ ((numerator.log2 : Int) - denominator.log2 - 1) *
            2 ^ ((denominator.log2 : Int) + 1) :=
          mul_lt_mul_of_pos_left (upper denominator) (by positivity)
      _ = 2 ^ (numerator.log2 : Int) := by
          rw [← zpow_add₀ two_ne_zero]
          congr 1
          ring
      _ ≤ numerator := lower numerator pos
  · rw [div_lt_iff₀ positive]
    calc (numerator : ℚ) < 2 ^ ((numerator.log2 : Int) + 1) := upper numerator
      _ = 2 ^ ((numerator.log2 : Int) - denominator.log2 + 1) * 2 ^ (denominator.log2 : Int) := by
          rw [← zpow_add₀ two_ne_zero]
          congr 1
          ring
      _ ≤ 2 ^ ((numerator.log2 : Int) - denominator.log2 + 1) * denominator :=
          mul_le_mul_of_nonneg_left (lower denominator pos') (by positivity)

/-- Whether a scaled fraction has less than a whole number of units. -/
theorem scaled_div_lt (numerator : Nat) {denominator : Nat} (exponent : Int) (n : Nat) :
    (scaled numerator denominator exponent).1 / (scaled numerator denominator exponent).2 < n ↔
      (numerator : ℚ) / denominator * 2 ^ exponent < n := by
  have nonneg : (0 : ℚ) ≤ numerator / denominator * 2 ^ exponent := by positivity
  rw [← Nat.floor_div_eq_div (K := ℚ), scaled_ratio, Nat.floor_lt nonneg]

theorem unitFor_unitOf {numerator denominator : Nat} (pos : 0 < numerator)
    (pos' : 0 < denominator) :
    UnitFor f (numerator / denominator) (f.unitOf numerator denominator) := by
  obtain ⟨lower, upper⟩ := ratio_bounds pos pos'
  simp only [unitOf, scaled_div_lt]
  generalize (numerator : ℚ) / denominator = q at lower upper ⊢
  generalize (numerator.log2 : Int) - denominator.log2 = top at lower upper ⊢
  have positive : 0 < q := lt_trans (by positivity) lower
  -- The guess is never too small, and too great by one binade at most.
  generalize guessed : max f.unitExponent (top - (f.precision - 1 : Nat)) = guess
  have bounded : q * 2 ^ (-guess) < 2 * f.fractionCodes := by
    calc q * 2 ^ (-guess) < 2 ^ (top + 1) * 2 ^ (-guess) :=
          mul_lt_mul_of_pos_right upper (by positivity)
      _ = 2 ^ (top + 1 - guess) := by rw [← zpow_add₀ two_ne_zero, sub_eq_add_neg]
      _ ≤ 2 ^ (((f.precision - 1 : Nat) : Int) + 1) := zpow_le_zpow_right₀ one_le_two (by omega)
      _ = 2 * f.fractionCodes := by
          rw [zpow_add_one₀ two_ne_zero, fractionCodes_cast, mul_comm]
  have halved : q * 2 ^ (-(guess - 1)) = 2 * (q * 2 ^ (-guess)) := by
    rw [neg_sub, sub_eq_add_neg, zpow_one_add₀ two_ne_zero]
    ring
  split
  next tooGreat =>
    refine ⟨by omega, ?_, fun _ => ?_⟩
    · rw [halved]
      linarith [tooGreat.2]
    · have exactly : guess = top - (f.precision - 1 : Nat) := by omega
      calc (f.fractionCodes : ℚ) = 2 ^ (top - 1) * 2 ^ (-(guess - 1)) := by
            rw [fractionCodes_cast, ← zpow_add₀ two_ne_zero]
            congr 1
            omega
        _ ≤ q * 2 ^ (-(guess - 1)) := mul_le_mul_of_nonneg_right lower.le (by positivity)
  next fine => exact ⟨by omega, bounded, fun above => not_lt.1 fun less => fine ⟨above, less⟩⟩

theorem UnitFor.mono {q r : ℚ} {unit other : Int} (ofQ : UnitFor f q unit)
    (ofR : UnitFor f r other) (le : q ≤ r) : unit ≤ other := by
  by_contra greater
  have full := ofQ.full (ofR.least.trans_lt (not_le.1 greater))
  have step : (2 : ℚ) ^ (-unit) * 2 ≤ 2 ^ (-other) := by
    rw [← zpow_add_one₀ two_ne_zero]
    exact zpow_le_zpow_right₀ one_le_two (by omega)
  have positive : (0 : ℚ) < f.fractionCodes := by exact_mod_cast f.fractionCodes_pos
  have nonneg : 0 ≤ q := by
    by_contra negative
    have := mul_nonpos_of_nonpos_of_nonneg (not_le.1 negative).le
      (zpow_nonneg (zero_le_two (α := ℚ)) (-unit))
    linarith
  have chain : q * 2 ^ (-unit) * 2 ≤ r * 2 ^ (-other) := by
    calc q * 2 ^ (-unit) * 2 = q * (2 ^ (-unit) * 2) := by ring
      _ ≤ r * 2 ^ (-other) := mul_le_mul le step (by positivity) (nonneg.trans le)
  linarith [ofR.below]

theorem UnitFor.halfEven_le {q : ℚ} {unit : Int} (ofQ : UnitFor f q unit) :
    halfEven (q * 2 ^ (-unit)) ≤ 2 * f.fractionCodes := by
  rw [← halfEven_natCast (2 * f.fractionCodes)]
  refine halfEven_mono ?_
  push_cast
  exact ofQ.below.le

theorem UnitFor.le_halfEven {q : ℚ} {unit : Int} (ofQ : UnitFor f q unit)
    (above : f.unitExponent < unit) : f.fractionCodes ≤ halfEven (q * 2 ^ (-unit)) := by
  rw [← halfEven_natCast f.fractionCodes]
  exact halfEven_mono (ofQ.full above)

/-! ## Magnitudes -/

/-- The code of a number of units. -/
def place (f : Format) (unit : Int) (units : Nat) : Nat :=
  (unit - f.unitExponent).toNat * f.fractionCodes + units

theorem roundMagnitude_eq {numerator denominator : Nat} (pos : 0 < numerator)
    (pos' : 0 < denominator) :
    f.roundMagnitude numerator denominator =
      min f.infinityCode (f.place (f.unitOf numerator denominator)
        (halfEven (numerator / denominator * 2 ^ (-f.unitOf numerator denominator)))) := by
  simp only [roundMagnitude, if_neg pos.ne', divideToEven_eq _ (scaled_snd_pos _ pos' _),
    scaled_ratio, place]

/-- The greater a ratio, the greater the code it is rounded to. -/
theorem roundMagnitude_mono {numerator denominator numerator' denominator' : Nat}
    (pos : 0 < denominator) (pos' : 0 < denominator')
    (le : (numerator : ℚ) / denominator ≤ numerator' / denominator') :
    f.roundMagnitude numerator denominator ≤ f.roundMagnitude numerator' denominator' := by
  rcases Nat.eq_zero_or_pos numerator with rfl | nonzero
  · exact Nat.zero_le _
  have nonzero' : 0 < numerator' := by
    have positive : (0 : ℚ) < numerator / denominator := by positivity
    by_contra zero
    rw [Nat.eq_zero_of_not_pos zero, Nat.cast_zero, zero_div] at le
    linarith
  rw [roundMagnitude_eq nonzero pos, roundMagnitude_eq nonzero' pos']
  have unit := unitFor_unitOf (f := f) nonzero pos
  have unit' := unitFor_unitOf (f := f) nonzero' pos'
  generalize f.unitOf numerator denominator = u at unit ⊢
  generalize f.unitOf numerator' denominator' = v at unit' ⊢
  refine min_le_min le_rfl ?_
  rcases (unit.mono unit' le).lt_or_eq with less | rfl
  · -- The units of the lesser ratio reach into the next binade at most.
    have most := unit.halfEven_le
    have least := unit'.le_halfEven (unit.least.trans_lt less)
    obtain ⟨k, further⟩ : ∃ k, (v - f.unitExponent).toNat = (u - f.unitExponent).toNat + 1 + k :=
      ⟨(v - u - 1).toNat, by have := unit.least; omega⟩
    rw [place, place, further, Nat.add_mul, Nat.add_mul, Nat.one_mul]
    omega
  · exact Nat.add_le_add_left
      (halfEven_mono (mul_le_mul_of_nonneg_right le (by positivity))) _

/-- The number a magnitude stands for. -/
def magnitudeValue (f : Format) (magnitude : Nat) : ℚ :=
  if magnitude / f.fractionCodes = 0 then
    (magnitude % f.fractionCodes : Nat) * 2 ^ f.unitExponent
  else
    (f.fractionCodes + magnitude % f.fractionCodes : Nat) *
      2 ^ (f.unitExponent + (magnitude / f.fractionCodes - 1 : Nat))

theorem magnitudeValue_zero (f : Format) : f.magnitudeValue 0 = 0 := by
  rw [magnitudeValue, if_pos (Nat.zero_div _), Nat.zero_mod, Nat.cast_zero, zero_mul]

/-- Below the first normal number a magnitude counts the least units. -/
theorem magnitudeValue_of_lt {magnitude : Nat} (small : magnitude < f.fractionCodes) :
    f.magnitudeValue magnitude = magnitude * 2 ^ f.unitExponent := by
  rw [magnitudeValue, if_pos (Nat.div_eq_of_lt small), Nat.mod_eq_of_lt small]

/-- In a binade of normal numbers a magnitude counts the units of the binade. -/
theorem magnitudeValue_normal (binade : Nat) {fraction : Nat} (small : fraction < f.fractionCodes) :
    f.magnitudeValue ((binade + 1) * f.fractionCodes + fraction) =
      (f.fractionCodes + fraction : Nat) * 2 ^ (f.unitExponent + binade) := by
  have field : ((binade + 1) * f.fractionCodes + fraction) / f.fractionCodes = binade + 1 := by
    rw [Nat.mul_comm, Nat.mul_add_div f.fractionCodes_pos, Nat.div_eq_of_lt small, Nat.add_zero]
  have rest : ((binade + 1) * f.fractionCodes + fraction) % f.fractionCodes = fraction := by
    rw [Nat.mul_add_mod_self_right, Nat.mod_eq_of_lt small]
  rw [magnitudeValue, field, rest, if_neg (Nat.succ_ne_zero _), Nat.add_sub_cancel]

/-- A code that was put together from a unit and a number of units stands for their product, also
where the units reach into the next binade. -/
theorem magnitudeValue_place {unit : Int} {units : Nat} (least : f.unitExponent ≤ unit)
    (most : units ≤ 2 * f.fractionCodes) (full : f.unitExponent < unit → f.fractionCodes ≤ units) :
    f.magnitudeValue (f.place unit units) = units * 2 ^ unit := by
  obtain ⟨binade, further⟩ := Int.eq_ofNat_of_zero_le (a := unit - f.unitExponent) (by omega)
  obtain rfl : unit = f.unitExponent + binade := by omega
  rw [place, further, Int.toNat_natCast]
  rcases Nat.lt_or_ge units f.fractionCodes with small | normal
  · obtain rfl : binade = 0 := by
      by_contra above
      exact absurd (full (by omega)) (Nat.not_le.2 small)
    rw [Nat.zero_mul, Nat.zero_add, magnitudeValue_of_lt small, Nat.cast_zero, add_zero]
  · obtain ⟨fraction, rfl⟩ := Nat.exists_eq_add_of_le normal
    rw [← Nat.add_assoc, ← Nat.succ_mul]
    rcases Nat.lt_or_ge fraction f.fractionCodes with inside | next
    · exact magnitudeValue_normal binade inside
    · obtain rfl : fraction = f.fractionCodes := by omega
      have carried := magnitudeValue_normal (binade + 1) f.fractionCodes_pos
      rw [Nat.add_zero, Nat.succ_mul (binade + 1)] at carried
      rw [Nat.succ_eq_add_one, carried, Nat.cast_succ, ← add_assoc, zpow_add_one₀ two_ne_zero]
      push_cast
      ring

/-- Every magnitude is put together so. -/
theorem exists_place (f : Format) (magnitude : Nat) :
    ∃ unit units, f.unitExponent ≤ unit ∧ units < 2 * f.fractionCodes ∧
      (f.unitExponent < unit → f.fractionCodes ≤ units) ∧ magnitude = f.place unit units := by
  rcases Nat.lt_or_ge magnitude f.fractionCodes with small | normal
  · refine ⟨f.unitExponent, magnitude, le_rfl, by omega, by omega, ?_⟩
    rw [place, sub_self, Int.toNat_zero, Nat.zero_mul, Nat.zero_add]
  · have inside := Nat.mod_lt magnitude f.fractionCodes_pos
    refine ⟨f.unitExponent + (magnitude / f.fractionCodes - 1 : Nat),
      f.fractionCodes + magnitude % f.fractionCodes, by omega, by omega, by omega, ?_⟩
    rw [place, add_sub_cancel_left, Int.toNat_natCast, ← Nat.add_assoc, ← Nat.succ_mul,
      Nat.succ_eq_add_one, Nat.sub_add_cancel (Nat.div_pos normal f.fractionCodes_pos),
      Nat.div_add_mod']

/-- Neighbours are a least unit apart, or more. -/
theorem magnitudeValue_succ (f : Format) (magnitude : Nat) :
    f.magnitudeValue magnitude + 2 ^ f.unitExponent ≤ f.magnitudeValue (magnitude + 1) := by
  obtain ⟨unit, units, least, inside, full, rfl⟩ := f.exists_place magnitude
  have coarser : (2 : ℚ) ^ f.unitExponent ≤ 2 ^ unit := zpow_le_zpow_right₀ one_le_two least
  rw [magnitudeValue_place least inside.le full, place, Nat.add_assoc, ← place,
    magnitudeValue_place least inside fun above => (full above).trans (Nat.le_succ _)]
  push_cast
  linarith

/-- Magnitudes are ordered like the numbers they stand for. -/
theorem magnitudeValue_strictMono (f : Format) : StrictMono f.magnitudeValue :=
  strictMono_nat_of_lt_succ fun magnitude =>
    (lt_add_of_pos_right _ (by positivity)).trans_le (f.magnitudeValue_succ magnitude)

theorem magnitudeValue_nonneg (f : Format) (magnitude : Nat) : 0 ≤ f.magnitudeValue magnitude := by
  rw [← f.magnitudeValue_zero]
  exact f.magnitudeValue_strictMono.monotone (Nat.zero_le _)

/-- The powers of two that have a normal number. -/
structure HasPower (f : Format) (exponent : Int) : Prop where
  normal : f.unitExponent + (f.precision - 1 : Nat) ≤ exponent
  bounded : exponent + 2 < f.unitExponent + (f.precision - 1 : Nat) + Nat.pow 2 f.exponentBits

theorem HasPower.exists_magnitude {exponent : Int} (power : f.HasPower exponent) :
    ∃ magnitude < f.infinityCode, f.magnitudeValue magnitude = 2 ^ exponent := by
  obtain ⟨normal, bounded⟩ := power
  refine ⟨f.place (exponent - (f.precision - 1 : Nat)) f.fractionCodes, ?_, ?_⟩
  · rw [place, ← Nat.succ_mul, infinityCode]
    exact Nat.mul_lt_mul_of_pos_right (by omega) f.fractionCodes_pos
  · rw [magnitudeValue_place (by omega) (by omega) fun _ => le_rfl, fractionCodes_cast,
      ← zpow_add₀ two_ne_zero, add_sub_cancel]

/-- A natural number of fewer bits than the format has is exact. -/
theorem magnitudeValue_roundMagnitude {n : Nat} (small : n < 2 * f.fractionCodes) :
    f.roundMagnitude n 1 < f.infinityCode ∧ f.magnitudeValue (f.roundMagnitude n 1) = n := by
  rcases Nat.eq_zero_or_pos n with rfl | pos
  · refine ⟨?_, ?_⟩
    · cases f <;> decide
    · rw [roundMagnitude, if_pos rfl, magnitudeValue_zero, Nat.cast_zero]
  have ofN := unitFor_unitOf (f := f) pos one_pos
  rw [roundMagnitude_eq pos one_pos]
  rw [Nat.cast_one, div_one] at ofN ⊢
  generalize f.unitOf n 1 = unit at ofN ⊢
  -- The unit is a fraction of one, so that the number is a number of units.
  have fine : unit ≤ 0 := by
    by_contra coarse
    have full := ofN.full (lt_of_le_of_lt (by cases f <;> decide) (not_le.1 coarse))
    have shrunk : (2 : ℚ) ^ (-unit) * 2 ≤ 1 := by
      rw [← zpow_add_one₀ two_ne_zero]
      exact zpow_le_one_of_nonpos₀ one_le_two (by omega)
    have bound : (n : ℚ) < 2 * f.fractionCodes := by exact_mod_cast small
    nlinarith
  obtain ⟨k, same⟩ := Int.eq_ofNat_of_zero_le (a := -unit) (by omega)
  have units : (n : ℚ) * 2 ^ (-unit) = (n * 2 ^ k : Nat) := by
    rw [same, zpow_natCast]
    push_cast
    rfl
  have most := ofN.halfEven_le
  have full := fun above => ofN.le_halfEven above
  rw [units, halfEven_natCast] at most full ⊢
  have finite : f.place unit (n * 2 ^ k) < f.infinityCode := by
    calc f.place unit (n * 2 ^ k) ≤ ((-f.unitExponent).toNat + 2) * f.fractionCodes := by
          rw [place, Nat.add_mul]
          exact Nat.add_le_add (Nat.mul_le_mul_right _ (by omega)) most
      _ < f.infinityCode := by cases f <;> decide
  rw [Nat.min_eq_right finite.le]
  refine ⟨finite, ?_⟩
  rw [magnitudeValue_place ofN.least most full, ← units, mul_assoc, ← zpow_add₀ two_ne_zero,
    neg_add_cancel, zpow_zero, mul_one]

/-! ## What a ratio is rounded to -/

/-- A magnitude is what a ratio is rounded to, however the ratio is written. -/
def Rounds (f : Format) (q : ℚ) (magnitude : Nat) : Prop :=
  ∃ numerator denominator : Nat, 0 < denominator ∧ q = numerator / denominator ∧
    magnitude = f.roundMagnitude numerator denominator

theorem Rounds.mono {q r : ℚ} {magnitude other : Nat} (ofQ : f.Rounds q magnitude)
    (ofR : f.Rounds r other) (le : q ≤ r) : magnitude ≤ other := by
  obtain ⟨numerator, denominator, pos, rfl, rfl⟩ := ofQ
  obtain ⟨numerator', denominator', pos', rfl, rfl⟩ := ofR
  exact roundMagnitude_mono pos pos' le

theorem rounds_natCast (f : Format) (n : Nat) : f.Rounds n (f.roundMagnitude n 1) :=
  ⟨n, 1, one_pos, by rw [Nat.cast_one, div_one], rfl⟩

theorem rounds_least (f : Format) : f.Rounds (2 ^ f.unitExponent) 1 := by
  refine ⟨1, 2 ^ (-f.unitExponent).toNat, by positivity, ?_, by cases f <;> decide +kernel⟩
  obtain ⟨k, opposite⟩ := Int.eq_ofNat_of_zero_le (a := -f.unitExponent) (by cases f <;> decide)
  have exponent : f.unitExponent = -(k : Int) := by omega
  rw [exponent, neg_neg, Int.toNat_natCast, zpow_neg, zpow_natCast]
  push_cast
  rw [one_div]

/-- A ratio is rounded to one magnitude. -/
theorem Rounds.unique {q : ℚ} {magnitude other : Nat} (rounds : f.Rounds q magnitude)
    (rounds' : f.Rounds q other) : magnitude = other :=
  (rounds.mono rounds' le_rfl).antisymm (rounds'.mono rounds le_rfl)

/-- What a ratio is rounded to, from the unit of its binade. -/
theorem UnitFor.rounds {q : ℚ} {unit : Int} (ofQ : UnitFor f q unit) (pos : 0 < q) :
    f.Rounds q (min f.infinityCode (f.place unit (halfEven (q * 2 ^ (-unit))))) := by
  have positive : 0 < q.num := Rat.num_pos.2 pos
  obtain ⟨numerator, same⟩ := Int.eq_ofNat_of_zero_le positive.le
  have ratio : q = numerator / q.den := by
    rw [← Int.cast_natCast numerator, ← same, Rat.num_div_den]
  refine ⟨numerator, q.den, q.den_pos, ratio, ?_⟩
  have nonzero : 0 < numerator := by omega
  have own := unitFor_unitOf (f := f) nonzero q.den_pos
  rw [roundMagnitude_eq nonzero q.den_pos]
  rw [← ratio] at own ⊢
  rw [(ofQ.mono own le_rfl).antisymm (own.mono ofQ le_rfl)]

/-- Numbers of the format are not rounded. -/
theorem rounds_magnitudeValue {magnitude : Nat} (finite : magnitude < f.infinityCode) :
    f.Rounds (f.magnitudeValue magnitude) magnitude := by
  obtain ⟨unit, units, least, inside, full, rfl⟩ := f.exists_place magnitude
  rw [magnitudeValue_place least inside.le full]
  rcases Nat.eq_zero_or_pos units with rfl | pos
  · obtain rfl : unit = f.unitExponent := by
      by_contra above
      have := full (by omega)
      have := f.fractionCodes_pos
      omega
    refine ⟨0, 1, one_pos, by simp, ?_⟩
    rw [place, sub_self, Int.toNat_zero, Nat.zero_mul, roundMagnitude, if_pos rfl]
  · have units_eq : (units : ℚ) * 2 ^ unit * 2 ^ (-unit) = units := by
      rw [mul_assoc, ← zpow_add₀ two_ne_zero, add_neg_cancel, zpow_zero, mul_one]
    have ofQ : UnitFor f (units * 2 ^ unit) unit := by
      refine ⟨least, ?_, fun above => ?_⟩
      · rw [units_eq]
        exact_mod_cast inside
      · rw [units_eq]
        exact_mod_cast full above
    have rounds := ofQ.rounds (by positivity)
    rwa [units_eq, halfEven_natCast, Nat.min_eq_right finite.le] at rounds

/-- The first power of two that has no number is rounded to infinity. -/
theorem rounds_infinityCode {exponent : Int} (beyond : exponent + 2 =
      f.unitExponent + (f.precision - 1 : Nat) + Nat.pow 2 f.exponentBits) :
    f.Rounds (2 ^ exponent) f.infinityCode := by
  have units : (2 : ℚ) ^ exponent * 2 ^ (-(exponent - (f.precision - 1 : Nat))) =
      f.fractionCodes := by
    rw [← zpow_add₀ two_ne_zero, fractionCodes_cast, neg_sub, add_sub_cancel]
  have positive : (0 : ℚ) < f.fractionCodes := by exact_mod_cast f.fractionCodes_pos
  have binades : 2 ≤ Nat.pow 2 f.exponentBits := by cases f <;> decide
  have ofQ : UnitFor f (2 ^ exponent) (exponent - (f.precision - 1 : Nat)) :=
    ⟨by omega, by rw [units]; linarith, fun _ => units.ge⟩
  have rounds := ofQ.rounds (by positivity)
  rw [units, halfEven_natCast, place, ← Nat.succ_mul] at rounds
  have same : (exponent - (f.precision - 1 : Nat) - f.unitExponent).toNat.succ =
      Nat.pow 2 f.exponentBits - 1 := by omega
  rwa [same, ← infinityCode, Nat.min_self] at rounds

/-- Exactly what is at most half the least number vanishes. -/
theorem Rounds.eq_zero_iff {q : ℚ} {magnitude : Nat} (rounds : f.Rounds q magnitude) :
    magnitude = 0 ↔ q ≤ 2 ^ (f.unitExponent - 1) := by
  have half : (2 : ℚ) ^ (f.unitExponent - 1) * 2 ^ (-f.unitExponent) = 1 / 2 := by
    rw [← zpow_add₀ two_ne_zero, show f.unitExponent - 1 + -f.unitExponent = -1 by omega]
    norm_num
  -- Less than the least number is counted in it.
  have small {r : ℚ} (pos : 0 < r) (less : r * 2 ^ (-f.unitExponent) < 1) :
      f.Rounds r (halfEven (r * 2 ^ (-f.unitExponent))) := by
    have few : (1 : ℚ) ≤ f.fractionCodes := by exact_mod_cast f.fractionCodes_pos
    have ofR : UnitFor f r f.unitExponent :=
      ⟨le_rfl, by linarith, fun above => absurd above (lt_irrefl _)⟩
    have finite : halfEven (r * 2 ^ (-f.unitExponent)) ≤ f.infinityCode := by
      have most := halfEven_mono less.le
      rw [← Nat.cast_one, halfEven_natCast] at most
      exact most.trans (by cases f <;> decide)
    have rounds := ofR.rounds pos
    rwa [place, sub_self, Int.toNat_zero, Nat.zero_mul, Nat.zero_add, Nat.min_eq_right finite]
      at rounds
  constructor
  · intro none
    by_contra above
    have pos : 0 < q := lt_trans (by positivity) (not_le.1 above)
    have more : 1 / 2 < q * 2 ^ (-f.unitExponent) := by
      rw [← half]
      exact mul_lt_mul_of_pos_right (not_le.1 above) (by positivity)
    rcases lt_or_ge (q * 2 ^ (-f.unitExponent)) 1 with less | whole
    · rw [rounds.unique (small pos less), halfEven_eq_zero_iff less] at none
      exact absurd none (not_le.2 more)
    · rw [zpow_neg, ← div_eq_mul_inv, one_le_div (by positivity)] at whole
      have := f.rounds_least.mono rounds whole
      omega
  · intro le
    have vanishes := small (r := 2 ^ (f.unitExponent - 1)) (by positivity) (by rw [half]; norm_num)
    rw [half, (halfEven_eq_zero_iff (by norm_num)).2 le_rfl] at vanishes
    exact Nat.eq_zero_of_le_zero (rounds.mono vanishes le)

theorem Rounds.le_infinityCode {q : ℚ} {magnitude : Nat} (rounds : f.Rounds q magnitude) :
    magnitude ≤ f.infinityCode := by
  obtain ⟨numerator, denominator, -, -, rfl⟩ := rounds
  exact f.roundMagnitude_le _ _

/-- What was rounded is the magnitude of a number. -/
theorem Rounds.lt_signCode {q : ℚ} {magnitude : Nat} (rounds : f.Rounds q magnitude) :
    magnitude < f.signCode :=
  rounds.le_infinityCode.trans_lt f.infinityCode_lt_signCode

theorem rounds_scaled (f : Format) (numerator : Nat) {denominator : Nat} (pos : 0 < denominator)
    (exponent : Int) :
    f.Rounds (numerator / denominator * 2 ^ exponent)
      (f.roundMagnitude (scaled numerator denominator exponent).1
        (scaled numerator denominator exponent).2) :=
  ⟨_, _, scaled_snd_pos _ pos _, (scaled_ratio _ _ _).symm, rfl⟩

end Format

end MapStyle
