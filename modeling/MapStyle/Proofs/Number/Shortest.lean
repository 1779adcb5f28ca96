import Mathlib
import MapStyle.Number.Shortest
import MapStyle.Proofs.Number.Notation
import MapStyle.Proofs.Number.Value

/-!
# Shortest decimals

The decimal that is written for a finite number rounds to that number, so that numbers are told
apart by their literals. A point of a grid is chosen only from the interval of what rounds to the
number, and a grid of seventeen digits has a point there in either format. Positional and
scientific notation write one and the same decimal.
-/

namespace MapStyle

open Text

namespace Format

variable {f : Format}

/-! ## The interval of a number -/

/-- What lies around a number of units: half a unit in either direction, and only a quarter of one
downwards where smaller units begin. The ends belong to it around an even number. -/
structure Around (significand : Nat) (lowest : Bool) (units : ℚ) : Prop where
  above : (significand : ℚ) - (if lowest then 1 / 4 else 1 / 2) ≤ units
  below : units ≤ significand + 1 / 2
  ends : significand % 2 = 1 →
    (significand : ℚ) - (if lowest then 1 / 4 else 1 / 2) ≠ units ∧ units ≠ significand + 1 / 2

/-- Half a unit around a natural number is rounded to it. -/
theorem Around.halfEven_eq {n : Nat} {q : ℚ} (around : Around n false q) (pos : 0 < n) :
    halfEven q = n := by
  obtain ⟨above, below, ends⟩ := around
  rw [if_neg Bool.false_ne_true] at above ends
  rcases lt_or_ge q n with less | more
  · -- The whole part is that of the predecessor.
    obtain ⟨k, rfl⟩ := Nat.exists_eq_succ_of_ne_zero pos.ne'
    push_cast at above less ends
    have floor : ⌊q⌋₊ = k := (Nat.floor_eq_iff (by linarith)).2 ⟨by linarith, less⟩
    rw [halfEven, floor, if_neg]
    rintro (low | ⟨tie, even⟩)
    · linarith
    · exact (ends (by omega)).1 (by linarith)
  · have floor : ⌊q⌋₊ = n := (Nat.floor_eq_iff (by linarith)).2 ⟨more, by linarith⟩
    rw [halfEven, floor, if_pos]
    rcases below.lt_or_eq with low | tie
    · exact .inl (by linarith)
    · refine .inr ⟨by linarith, ?_⟩
      by_contra odd
      exact (ends (by omega)).2 tie

/-- Smaller units begin below the first number of a binade, unless it is the least one. -/
def isLowest (f : Format) (significand : Nat) (exponent : Int) : Bool :=
  significand = f.fractionCodes ∧ f.unitExponent < exponent

theorem fractionCodes_even (f : Format) : f.fractionCodes % 2 = 0 := by cases f <;> decide

/-- The units of a number are twice as many of the smaller units. -/
theorem place_pred {exponent : Int} (above : f.unitExponent < exponent) :
    f.place (exponent - 1) (2 * f.fractionCodes) = f.place exponent f.fractionCodes := by
  obtain ⟨k, rfl⟩ : ∃ k : Nat, exponent = f.unitExponent + (k + 1) :=
    ⟨(exponent - f.unitExponent - 1).toNat, by omega⟩
  have before : (f.unitExponent + (k + 1) - 1 - f.unitExponent).toNat = k := by omega
  have after : (f.unitExponent + (k + 1 : Int) - f.unitExponent).toNat = k + 1 := by omega
  rw [place, place, before, after, Nat.add_mul]
  omega

/-- What lies around a number rounds to it. -/
theorem Around.rounds {significand : Nat} {exponent : Int} {q : ℚ} (pos : 0 < significand)
    (least : f.unitExponent ≤ exponent) (most : significand < 2 * f.fractionCodes)
    (full : f.unitExponent < exponent → f.fractionCodes ≤ significand)
    (finite : f.place exponent significand ≤ f.infinityCode)
    (around : Around significand (f.isLowest significand exponent) (q * 2 ^ (-exponent))) :
    f.Rounds q (f.place exponent significand) := by
  have one : (1 : ℚ) ≤ significand := by exact_mod_cast pos
  have most' : (significand : ℚ) + 1 ≤ 2 * f.fractionCodes := by exact_mod_cast most
  have positive : 0 < q := by
    refine pos_of_mul_pos_left (lt_of_lt_of_le ?_ around.above) (by positivity)
    split <;> linarith
  -- Where the units of the number are those of the ratio.
  have same (inside : Around significand false (q * 2 ^ (-exponent)))
      (many : f.unitExponent < exponent → (f.fractionCodes : ℚ) ≤ q * 2 ^ (-exponent)) :
      f.Rounds q (f.place exponent significand) := by
    have ofQ : UnitFor f q exponent := ⟨least, by linarith [inside.below], many⟩
    have rounds := ofQ.rounds positive
    rwa [inside.halfEven_eq pos, Nat.min_eq_right finite] at rounds
  cases lowest : f.isLowest significand exponent with
  | false =>
    rw [lowest] at around
    refine same around fun above => ?_
    have further : f.fractionCodes + 1 ≤ significand := by
      refine (full above).lt_of_ne fun first => ?_
      exact of_decide_eq_false lowest ⟨first.symm, above⟩
    have further : (f.fractionCodes : ℚ) + 1 ≤ significand := by exact_mod_cast further
    have near := around.above
    rw [if_neg Bool.false_ne_true] at near
    linarith
  | true =>
    obtain ⟨first, above⟩ := of_decide_eq_true lowest
    have near := around.above
    rw [lowest, if_pos rfl] at near
    have even : ¬significand % 2 = 1 := by rw [first, f.fractionCodes_even]; decide
    rcases le_or_gt (significand : ℚ) (q * 2 ^ (-exponent)) with more | less
    · refine same ⟨?_, around.below, fun odd => absurd odd even⟩ fun _ => first ▸ more
      rw [if_neg Bool.false_ne_true]
      linarith
    · -- The ratio has the units of the binade underneath.
      have halved : q * 2 ^ (-(exponent - 1)) = 2 * (q * 2 ^ (-exponent)) := by
        rw [neg_sub, sub_eq_add_neg, zpow_one_add₀ two_ne_zero]
        ring
      rw [first] at near less one
      have inside : Around (2 * f.fractionCodes) false (q * 2 ^ (-(exponent - 1))) := by
        rw [halved]
        refine ⟨?_, ?_, fun odd => absurd odd (by omega)⟩
        · rw [if_neg Bool.false_ne_true]
          push_cast
          linarith
        · push_cast
          linarith
      have ofQ : UnitFor f q (exponent - 1) := by
        refine ⟨by omega, ?_, fun _ => ?_⟩
        · rw [halved]
          linarith
        · rw [halved]
          linarith
      have rounds := ofQ.rounds positive
      rwa [inside.halfEven_eq (by omega), place_pred above, ← first,
        Nat.min_eq_right finite] at rounds

end Format

namespace Digits

open Format

/-! ## Points of grids -/

/-- The number that a decimal stands for. -/
def value (d : Digits) : ℚ := d.digits * 10 ^ d.exponent

/-- Whether a point of a grid lies around a number, on a common scale for both. -/
def inside (significand : Nat) (lowest : Bool) (quarter point n : Nat) : Bool :=
  let low := (4 * significand - if lowest then 1 else 2) * quarter
  let high := (4 * significand + 2) * quarter
  if significand % 2 = 0 then low ≤ n * point && n * point ≤ high
  else low < n * point && n * point < high

/-- The neighbour of a number on a grid, on a common scale for both. -/
def neighbour? (significand : Nat) (lowest : Bool) (quarter point : Nat) : Option Nat :=
  let value := 4 * significand * quarter
  let below := value / point
  let above := below + 1
  match inside significand lowest quarter point below,
    inside significand lowest quarter point above with
  | true, true => some (if value - below * point < above * point - value then below else above)
  | true, false => some below
  | false, true => some above
  | false, false => none

variable {significand : Nat} {exponent grid : Int} {lowest : Bool}

/-- A power of ten as a fraction. -/
def powerOfTen (grid : Int) : Nat × Nat :=
  if 0 ≤ grid then (Nat.pow 10 grid.toNat, 1) else (1, Nat.pow 10 (-grid).toNat)

theorem powerOfTen_ratio (grid : Int) :
    ((powerOfTen grid).1 : ℚ) = 10 ^ grid * (powerOfTen grid).2 ∧ 0 < (powerOfTen grid).2 := by
  unfold powerOfTen
  split
  next nonneg =>
    obtain ⟨k, rfl⟩ := Int.eq_ofNat_of_zero_le nonneg
    simp [zpow_natCast]
  next negative =>
    obtain ⟨k, rfl⟩ : ∃ k : Nat, grid = -(k : Int) := ⟨(-grid).toNat, by omega⟩
    simp [zpow_neg, zpow_natCast]

/-- The scale is that of quarters of a unit. -/
theorem onGrid?_eq (significand : Nat) (exponent : Int) (lowest : Bool) (grid : Int) :
    ∃ quarter point : Nat, 0 < quarter ∧
      (point : ℚ) = 4 * (10 ^ grid * 2 ^ (-exponent)) * quarter ∧
      onGrid? significand exponent lowest grid =
        neighbour? significand lowest quarter point := by
  obtain ⟨spacing, scale⟩ := powerOfTen_ratio grid
  have one := scaled_snd_pos 1 Nat.one_pos (exponent - 2)
  have positive : (0 : ℚ) < (scaled 1 1 (exponent - 2)).2 := by exact_mod_cast one
  have unit := scaled_ratio 1 1 (exponent - 2)
  rw [div_eq_iff positive.ne', Nat.cast_one, div_one, one_mul] at unit
  refine ⟨(scaled 1 1 (exponent - 2)).1 * (powerOfTen grid).2,
    (scaled 1 1 (exponent - 2)).2 * (powerOfTen grid).1, Nat.mul_pos ?_ scale, ?_, rfl⟩
  · have nonzero : (0 : ℚ) < (scaled 1 1 (exponent - 2)).1 := by
      rw [unit]
      positivity
    exact_mod_cast nonzero
  · have inverse : (4 : ℚ) * 2 ^ (-exponent) * 2 ^ (exponent - 2) = 1 := by
      rw [mul_assoc, ← zpow_add₀ two_ne_zero, show -exponent + (exponent - 2) = -2 by omega]
      norm_num
    push_cast
    rw [unit, spacing]
    linear_combination (-10 ^ grid * ((scaled 1 1 (exponent - 2)).2 : ℚ) * (powerOfTen grid).2) *
      inverse

/-- What is a point of a grid on the scale is around the number. -/
theorem around_of_inside {quarter point n : Nat} (pos : 0 < significand) (scaled : 0 < quarter)
    {step : ℚ} (points : (point : ℚ) = 4 * step * quarter)
    (within : inside significand lowest quarter point n = true) :
    Around significand lowest (n * step) := by
  have positive : (0 : ℚ) < quarter := by exact_mod_cast scaled
  have onScale : ((n * point : Nat) : ℚ) = 4 * (n * step) * quarter := by
    push_cast
    rw [points]
    ring
  have low : (((4 * significand - if lowest then 1 else 2) * quarter : Nat) : ℚ) =
      4 * (significand - if lowest then 1 / 4 else 1 / 2) * quarter := by
    have enough : (if lowest then 1 else 2) ≤ 4 * significand := by split <;> omega
    rw [Nat.cast_mul, Nat.cast_sub enough]
    push_cast
    split <;> ring
  have high : (((4 * significand + 2) * quarter : Nat) : ℚ) =
      4 * (significand + 1 / 2) * quarter := by
    push_cast
    ring
  generalize (n : ℚ) * step = units at onScale ⊢
  have le {a b : ℚ} (le : 4 * a * quarter ≤ 4 * b * quarter) : a ≤ b := by
    exact le_of_mul_le_mul_left (le_of_mul_le_mul_right le positive) four_pos
  have lt {a b : ℚ} (lt : 4 * a * quarter < 4 * b * quarter) : a < b := by
    exact lt_of_mul_lt_mul_left (lt_of_mul_lt_mul_right lt positive.le) four_pos.le
  simp only [inside] at within
  split at within
  next even =>
    simp only [Bool.and_eq_true, decide_eq_true_eq] at within
    refine ⟨le ?_, le ?_, fun odd => absurd (even.symm.trans odd) zero_ne_one⟩
    · rw [← onScale, ← low]
      exact_mod_cast within.1
    · rw [← onScale, ← high]
      exact_mod_cast within.2
  next =>
    simp only [Bool.and_eq_true, decide_eq_true_eq] at within
    have above : (significand : ℚ) - (if lowest then 1 / 4 else 1 / 2) < units := by
      refine lt ?_
      rw [← onScale, ← low]
      exact_mod_cast within.1
    have below : units < significand + 1 / 2 := by
      refine lt ?_
      rw [← onScale, ← high]
      exact_mod_cast within.2
    exact ⟨above.le, below.le, fun _ => ⟨above.ne, below.ne⟩⟩

theorem inside_of_neighbour? {quarter point n : Nat}
    (chosen : neighbour? significand lowest quarter point = some n) :
    inside significand lowest quarter point n = true := by
  simp only [neighbour?] at chosen
  split at chosen
  next below above =>
    cases chosen
    split
    · exact below
    · exact above
  next below _ => cases chosen; exact below
  next _ above => cases chosen; exact above
  next => cases chosen

/-- A grid that is finer than the interval has a point there: where the point above the number is
beyond the interval, the one below is within. -/
theorem exists_neighbour? {quarter point : Nat} (pos : 0 < significand) (spaced : 0 < point)
    (fine : point < (if lowest then 1 else 2) * quarter + 2 * quarter) :
    ∃ n, neighbour? significand lowest quarter point = some n := by
  have found : inside significand lowest quarter point (4 * significand * quarter / point) = true ∨
      inside significand lowest quarter point (4 * significand * quarter / point + 1) = true := by
    have parts := Nat.div_add_mod' (4 * significand * quarter) point
    have rest := Nat.mod_lt (4 * significand * quarter) spaced
    have many : 4 * quarter ≤ 4 * significand * quarter :=
      Nat.mul_le_mul_right quarter (by omega)
    have down : (if lowest then 1 else 2) * quarter ≤ 2 * quarter :=
      Nat.mul_le_mul_right quarter (by split <;> decide)
    simp only [inside, Nat.sub_mul, Nat.add_mul, Nat.one_mul]
    generalize 4 * significand * quarter / point * point = below at parts ⊢
    generalize (if lowest then 1 else 2) * quarter = reach at fine down ⊢
    split
    · simp only [Bool.and_eq_true, decide_eq_true_eq]
      omega
    · simp only [Bool.and_eq_true, decide_eq_true_eq]
      omega
  simp only [neighbour?]
  split
  next => exact ⟨_, rfl⟩
  next => exact ⟨_, rfl⟩
  next => exact ⟨_, rfl⟩
  next below above => simp [below, above] at found

/-! ## The search -/

/-- Factors of ten move between the digits and the exponent. -/
theorem value_strip (fuel : Nat) (d : Digits) : (strip fuel d).value = d.value := by
  fun_induction strip fuel d with
  | case1 d => rfl
  | case2 fuel d tens ih =>
    have whole : d.digits / 10 * 10 = d.digits := Nat.div_mul_cancel (Nat.dvd_of_mod_eq_zero tens.2)
    have split : (d.digits : ℚ) = (d.digits / 10 : Nat) * 10 := by exact_mod_cast whole.symm
    rw [ih, value, value, split, zpow_add_one₀ (by norm_num)]
    ring
  | case3 => rfl

/-- The search ends with a point of a grid where the last grid has one. -/
theorem exists_grid_of_search {lead : Int} (fuel : Nat) {count : Nat}
    (last : ∃ n, onGrid? significand exponent lowest (lead - (count + fuel : Nat) + 1) = some n) :
    ∃ n grid, onGrid? significand exponent lowest grid = some n ∧
      (search significand exponent lowest lead (fuel + 1) count).value = n * 10 ^ grid := by
  induction fuel generalizing count with
  | zero =>
    obtain ⟨n, found⟩ := last
    rw [Nat.add_zero] at found
    refine ⟨n, _, found, ?_⟩
    simp only [search, found, value_strip]
    rfl
  | succ fuel ih =>
    rw [search]
    cases found : onGrid? significand exponent lowest (lead - count + 1) with
    | some n => exact ⟨n, _, found, value_strip _ _⟩
    | none => exact ih (by rwa [Nat.add_right_comm, Nat.add_assoc])

theorem lt_pow_decimalLength (n : Nat) : n < 10 ^ Binary.decimalLength n :=
  (Nat.length_toDigits_le_iff (by decide) Nat.length_toDigits_pos).1 le_rfl

theorem pow_decimalLength_le {n : Nat} (pos : 0 < n) : 10 ^ (Binary.decimalLength n - 1) ≤ n := by
  rcases Nat.eq_zero_or_pos (Binary.decimalLength n - 1) with none | some
  · rw [none, pow_zero]
    exact pos
  · by_contra less
    have short := (Nat.length_toDigits_le_iff (by decide) some).2 (not_le.1 less)
    rw [← Binary.decimalLength] at short
    omega

/-- The first digit is not beyond the number. -/
theorem pow_leadingExponent_le {numerator denominator : Nat} (pos : 0 < numerator)
    (pos' : 0 < denominator) :
    (10 : ℚ) ^ leadingExponent numerator denominator ≤ numerator / denominator := by
  have positive : (0 : ℚ) < denominator := by exact_mod_cast pos'
  unfold leadingExponent
  split
  next whole =>
    have quotient := Nat.div_pos whole pos'
    obtain ⟨k, length⟩ : ∃ k, Binary.decimalLength (numerator / denominator) = k + 1 :=
      Nat.exists_eq_succ_of_ne_zero (Nat.length_toDigits_pos).ne'
    have bound := pow_decimalLength_le quotient
    rw [length, Nat.add_sub_cancel] at bound
    rw [length, Nat.cast_succ, add_sub_cancel_right, zpow_natCast]
    calc (10 : ℚ) ^ k ≤ (numerator / denominator : Nat) := by exact_mod_cast bound
      _ ≤ numerator / denominator := Nat.cast_div_le
  next =>
    -- Ten to the power of the digits before the reciprocal's point is beyond the reciprocal.
    have below {k : Nat} (bound : denominator ≤ 10 ^ k * numerator) :
        (10 : ℚ) ^ (-(k : Int)) ≤ numerator / denominator := by
      rw [zpow_neg, zpow_natCast, le_div_iff₀ positive, inv_mul_le_iff₀ (by positivity)]
      exact_mod_cast bound
    simp only
    split
    next same => exact below (same.trans (Nat.mul_comm _ _)).le
    next => exact below (Nat.lt_mul_of_div_lt (lt_pow_decimalLength _) pos).le

theorem two_fractionCodes_lt (f : Format) : 2 * f.fractionCodes < 10 ^ 16 := by
  cases f <;> decide

/-- A grid of seventeen digits is finer than the interval of a number. -/
theorem exists_last_grid {f : Format} (pos : 0 < significand)
    (most : significand < 2 * f.fractionCodes) {lead : Int}
    (first : (10 : ℚ) ^ lead ≤ significand * 2 ^ exponent) :
    ∃ n, onGrid? significand exponent (f.isLowest significand exponent) (lead - 16) = some n := by
  obtain ⟨quarter, point, scaled, points, eq⟩ :=
    onGrid?_eq significand exponent (f.isLowest significand exponent) (lead - 16)
  have positive : (0 : ℚ) < quarter := by exact_mod_cast scaled
  have spaced : (0 : ℚ) < point := by
    rw [points]
    positivity
  have step : (10 : ℚ) ^ (lead - 16) * 2 ^ (-exponent) * 10 ^ 16 ≤ significand := by
    calc (10 : ℚ) ^ (lead - 16) * 2 ^ (-exponent) * 10 ^ 16 = 10 ^ lead * 2 ^ (-exponent) := by
          rw [zpow_sub₀ (by norm_num)]
          norm_num
          ring
      _ ≤ significand * 2 ^ exponent * 2 ^ (-exponent) :=
          mul_le_mul_of_nonneg_right first (by positivity)
      _ = significand := by
          rw [mul_assoc, ← zpow_add₀ two_ne_zero, add_neg_cancel, zpow_zero, mul_one]
  have digits : 2 * (f.fractionCodes : ℚ) < 10 ^ 16 := by exact_mod_cast two_fractionCodes_lt f
  rw [eq]
  refine exists_neighbour? pos (by exact_mod_cast spaced) ?_
  have fine : (point : ℚ) < ((if f.isLowest significand exponent then 1 else 2 : Nat) : ℚ) *
      quarter + 2 * quarter := by
    rw [points, ← add_mul]
    refine mul_lt_mul_of_pos_right ?_ positive
    split
    next lowest =>
      obtain ⟨same, -⟩ := of_decide_eq_true lowest
      rw [same] at step
      push_cast
      linarith
    next =>
      have most : (significand : ℚ) < 2 * f.fractionCodes := by exact_mod_cast most
      push_cast
      linarith
  exact_mod_cast fine

/-- The digits that are chosen lie around the number. -/
theorem around_shortest {f : Format} (pos : 0 < significand)
    (most : significand < 2 * f.fractionCodes) :
    Around significand (f.isLowest significand exponent)
      ((shortest f significand exponent).value * 2 ^ (-exponent)) := by
  have ratio := scaled_ratio significand 1 exponent
  rw [Nat.cast_one, div_one] at ratio
  have denominator := scaled_snd_pos significand Nat.one_pos exponent
  have numerator : 0 < (scaled significand 1 exponent).1 := by
    refine Nat.pos_of_ne_zero fun none => ?_
    rw [none, Nat.cast_zero, zero_div] at ratio
    exact (mul_pos (Nat.cast_pos.2 pos) (by positivity)).ne ratio
  have first := pow_leadingExponent_le numerator denominator
  rw [ratio] at first
  obtain ⟨n, grid, found, value⟩ := exists_grid_of_search 16 (by
    rw [show ∀ lead : Int, lead - (1 + 16 : Nat) + 1 = lead - 16 by intro lead; omega]
    exact exists_last_grid pos most first)
  obtain ⟨quarter, point, scaled, points, eq⟩ :=
    onGrid?_eq significand exponent (f.isLowest significand exponent) grid
  have around := around_of_inside pos scaled points (inside_of_neighbour? (eq ▸ found))
  rw [← mul_assoc, ← value] at around
  exact around

end Digits

end MapStyle
