import Mathlib
import MapStyle.Proofs.Number.Rounding
import MapStyle.Proofs.Number.Zeros

/-!
# What finite numbers stand for

A finite number has a rational value: its sign and the number its magnitude stands for. Places
are ordered like values, and an operation on finite numbers has the magnitude that the exact
result is rounded to, with the sign of the exact result unless that is zero.
-/

namespace MapStyle

/-- The rational number that finite parts stand for. -/
def Unpacked.value : Unpacked → ℚ
  | .finite negative significand exponent => Binary.integer negative significand * 2 ^ exponent
  | _ => 0

namespace Format

/-- The number at a place among all numbers. -/
def placeValue (f : Format) : Int → ℚ
  | .ofNat magnitude => f.magnitudeValue magnitude
  | .negSucc magnitude => -f.magnitudeValue (magnitude + 1)

theorem placeValue_succ (f : Format) (place : Int) :
    f.placeValue place + 2 ^ f.unitExponent ≤ f.placeValue (place + 1) := by
  match place with
  | .ofNat magnitude => exact f.magnitudeValue_succ magnitude
  | .negSucc 0 =>
    have step := f.magnitudeValue_succ 0
    show -f.magnitudeValue 1 + 2 ^ f.unitExponent ≤ f.magnitudeValue 0
    rw [magnitudeValue_zero] at step ⊢
    linarith
  | .negSucc (magnitude + 1) =>
    have step := f.magnitudeValue_succ (magnitude + 1)
    show -f.magnitudeValue (magnitude + 2) + 2 ^ f.unitExponent ≤ -f.magnitudeValue (magnitude + 1)
    linarith

theorem placeValue_strictMono (f : Format) : StrictMono f.placeValue :=
  strictMono_int_of_lt_succ fun place =>
    (lt_add_of_pos_right _ (by positivity)).trans_le (f.placeValue_succ place)

end Format

namespace Binary

variable {f g : Format}

/-- The rational number that a finite number stands for. -/
def value (x : Binary f) : ℚ := x.unpack.value

/-- The rational number without its sign. -/
def size (x : Binary f) : ℚ := f.magnitudeValue x.magnitude

theorem size_nonneg (x : Binary f) : 0 ≤ x.size := f.magnitudeValue_nonneg _

theorem size_le {x y : Binary f} (le : x.magnitude ≤ y.magnitude) : x.size ≤ y.size :=
  f.magnitudeValue_strictMono.monotone le

theorem isNaN_of_isFinite {x : Binary f} (finite : x.isFinite = true) : x.isNaN = false := by
  rw [isFinite, decide_eq_true_eq] at finite
  simpa [isNaN] using finite.le

/-- A finite number is unpacked to its sign and its size. -/
theorem exists_unpack {x : Binary f} (finite : x.isFinite = true) :
    ∃ significand exponent, x.unpack = .finite x.isNegative significand exponent ∧
      (significand : ℚ) * 2 ^ exponent = x.size := by
  simp only [unpack, isNaN_of_isFinite finite, finite, size, Format.magnitudeValue,
    Bool.false_eq_true, if_false, if_true]
  split
  · exact ⟨_, _, rfl, rfl⟩
  · exact ⟨_, _, rfl, rfl⟩

/-- Whatever is not finite is unpacked to no finite parts. -/
theorem unpack_of_not_finite {x : Binary f} (infinite : x.isFinite = false) :
    (x.isNaN = true ∧ x.unpack = .nan x.isNegative) ∨
      (x.isNaN = false ∧ x.unpack = .infinite x.isNegative) := by
  cases number : x.isNaN
  · exact .inr ⟨rfl, by simp only [unpack, number, infinite, Bool.false_eq_true, if_false]⟩
  · exact .inl ⟨rfl, by simp only [unpack, number, if_true]⟩

theorem cast_integer (negative : Bool) (magnitude : Nat) :
    (integer negative magnitude : ℚ) = if negative then -(magnitude : ℚ) else magnitude := by
  cases negative <;> simp [integer]

theorem value_eq {x : Binary f} (finite : x.isFinite = true) :
    x.value = if x.isNegative then -x.size else x.size := by
  obtain ⟨significand, exponent, parts, sized⟩ := exists_unpack finite
  rw [value, parts, Unpacked.value, cast_integer, ← sized]
  split
  · rw [neg_mul]
  · rfl

theorem value_of_nonneg {x : Binary f} (finite : x.isFinite = true)
    (sign : x.isNegative = true → x.magnitude = 0) : x.value = x.size := by
  rw [value_eq finite]
  split
  next negative => rw [size, sign negative, f.magnitudeValue_zero, neg_zero]
  next => rfl

/-! ## Order -/

theorem value_eq_placeValue {x : Binary f} (finite : x.isFinite = true) :
    x.value = f.placeValue x.key := by
  rw [value_eq finite, key, size]
  split
  · cases x.magnitude with
    | zero => rw [f.magnitudeValue_zero, neg_zero]; exact f.magnitudeValue_zero.symm
    | succ magnitude => rfl
  · rfl

theorem value_le_iff {x y : Binary f} (finite : x.isFinite = true) (finite' : y.isFinite = true) :
    x.value ≤ y.value ↔ x.key ≤ y.key := by
  rw [value_eq_placeValue finite, value_eq_placeValue finite']
  exact f.placeValue_strictMono.le_iff_le

/-- Different values are a least unit apart, or more. -/
theorem value_add_le {x y : Binary f} (finite : x.isFinite = true) (finite' : y.isFinite = true)
    (less : x.key < y.key) : x.value + 2 ^ f.unitExponent ≤ y.value := by
  rw [value_eq_placeValue finite, value_eq_placeValue finite']
  exact (f.placeValue_succ _).trans (f.placeValue_strictMono.monotone less)

/-! ## Signs and magnitudes -/

theorem magnitude_lt (x : Binary f) : x.magnitude < f.signCode := Nat.mod_lt _ (Nat.two_pow_pos _)

theorem isNegative_signed {magnitude : Nat} (small : magnitude < f.signCode) (negative : Bool) :
    (signed negative magnitude : Binary f).isNegative = negative := by
  rw [isNegative, code_signed small]
  cases negative
  · simpa using small
  · simp

theorem magnitude_neg (x : Binary f) : x.neg.magnitude = x.magnitude :=
  magnitude_signed x.magnitude_lt _

theorem isNegative_neg (x : Binary f) : x.neg.isNegative = !x.isNegative :=
  isNegative_signed x.magnitude_lt _

theorem isFinite_neg (x : Binary f) : x.neg.isFinite = x.isFinite := by
  rw [isFinite, magnitude_neg, isFinite]

theorem value_neg {x : Binary f} (finite : x.isFinite = true) : x.neg.value = -x.value := by
  rw [value_eq finite, value_eq ((isFinite_neg x).trans finite), isNegative_neg, size,
    magnitude_neg, size]
  cases x.isNegative <;> simp

/-! ## Results of operations -/

/-- A number is the rounded one of a size, with a sign. -/
structure Rounded (x : Binary f) (negative : Bool) (q : ℚ) : Prop where
  sign : x.isNegative = negative
  rounds : f.Rounds q x.magnitude

theorem rounded_signed (negative : Bool) {q : ℚ} {magnitude : Nat}
    (rounds : f.Rounds q magnitude) : (signed negative magnitude : Binary f).Rounded negative q :=
  ⟨isNegative_signed rounds.lt_signCode _, by rwa [magnitude_signed rounds.lt_signCode]⟩

theorem rounded_ofScaled (negative : Bool) (significand : Nat) (exponent : Int) :
    (ofScaled negative significand exponent : Binary f).Rounded negative
      (significand * 2 ^ exponent) := by
  have rounds := f.rounds_scaled significand Nat.one_pos exponent
  rw [Nat.cast_one, div_one] at rounds
  exact rounded_signed negative rounds

theorem rounded_ofNat (n : Nat) : (ofNat n : Binary f).Rounded false n :=
  rounded_signed false (f.rounds_natCast n)

/-- The product of finite numbers. -/
theorem rounded_mul {x y : Binary f} (finite : x.isFinite = true) (finite' : y.isFinite = true) :
    (mul x y).Rounded (x.isNegative != y.isNegative) (x.size * y.size) := by
  obtain ⟨m, e, parts, sized⟩ := exists_unpack finite
  obtain ⟨n, d, parts', sized'⟩ := exists_unpack finite'
  have product : ((m * n : Nat) : ℚ) * 2 ^ (e + d) = x.size * y.size := by
    rw [← sized, ← sized', zpow_add₀ two_ne_zero]
    push_cast
    ring
  rw [mul, parts, parts', ← product]
  exact rounded_ofScaled _ _ _

/-- The quotient of finite numbers, the second of which is not zero. -/
theorem rounded_div {x y : Binary f} (finite : x.isFinite = true) (finite' : y.isFinite = true)
    (nonzero : 0 < y.size) :
    (div x y).Rounded (x.isNegative != y.isNegative) (x.size / y.size) := by
  obtain ⟨m, e, parts, sized⟩ := exists_unpack finite
  obtain ⟨n, d, parts', sized'⟩ := exists_unpack finite'
  have pos : 0 < n := by
    refine Nat.pos_of_ne_zero fun zero => ?_
    rw [← sized', zero, Nat.cast_zero, zero_mul] at nonzero
    exact lt_irrefl _ nonzero
  have quotient : (m : ℚ) / n * 2 ^ (e - d) = x.size / y.size := by
    rw [← sized, ← sized', zpow_sub₀ two_ne_zero]
    field_simp
  simp only [div, parts, parts', if_neg pos.ne']
  rw [← quotient]
  exact rounded_signed _ (f.rounds_scaled m pos (e - d))

/-- A finite number in another format. -/
theorem rounded_convert {x : Binary f} (finite : x.isFinite = true) :
    (convert x : Binary g).Rounded x.isNegative x.size := by
  obtain ⟨m, e, parts, sized⟩ := exists_unpack finite
  rw [convert, parts, ← sized]
  exact rounded_ofScaled _ _ _

theorem integer_mul (negative : Bool) (magnitude factor : Nat) :
    integer negative (magnitude * factor) = integer negative magnitude * factor := by
  cases negative
  · exact Nat.cast_mul _ _
  · show -((magnitude * factor : Nat) : Int) = -magnitude * factor
    rw [Nat.cast_mul, neg_mul]

/-- The sum of finite numbers is worked out in the lesser of their units. -/
theorem value_in_unit {x : Binary f} {significand : Nat} {exponent unit : Int}
    (parts : x.unpack = .finite x.isNegative significand exponent) (le : unit ≤ exponent) :
    (integer x.isNegative (significand * Nat.pow 2 (exponent - unit).toNat) : ℚ) * 2 ^ unit =
      x.value := by
  obtain ⟨k, further⟩ := Int.eq_ofNat_of_zero_le (a := exponent - unit) (by omega)
  obtain rfl : exponent = k + unit := by omega
  rw [value, parts, Unpacked.value, further, Int.toNat_natCast, integer_mul, Nat.pow_eq,
    zpow_add₀ two_ne_zero, zpow_natCast]
  push_cast
  ring

/-- The sum of finite numbers. It is written as less than zero only if it is, or vanishes. -/
theorem rounds_add {x y : Binary f} (finite : x.isFinite = true) (finite' : y.isFinite = true) :
    f.Rounds |x.value + y.value| (add x y).magnitude ∧
      ((add x y).isNegative = true → (add x y).magnitude = 0 ∨ x.value + y.value < 0) := by
  obtain ⟨m, e, parts, -⟩ := exists_unpack finite
  obtain ⟨n, d, parts', -⟩ := exists_unpack finite'
  have inUnit := value_in_unit parts (min_le_left e d)
  have inUnit' := value_in_unit parts' (min_le_right e d)
  simp only [add, parts, parts']
  generalize integer x.isNegative (m * Nat.pow 2 (e - min e d).toNat) = first at inUnit ⊢
  generalize integer y.isNegative (n * Nat.pow 2 (d - min e d).toNat) = second at inUnit' ⊢
  generalize min e d = unit at inUnit inUnit' ⊢
  have exact : ((first + second : Int) : ℚ) * 2 ^ unit = x.value + y.value := by
    rw [← inUnit, ← inUnit']
    push_cast
    ring
  rw [← exact]
  generalize first + second = total
  split
  next none =>
    have unsigned : (zero (x.isNegative && y.isNegative) : Binary f).magnitude = 0 :=
      magnitude_signed (Nat.two_pow_pos _) _
    rw [unsigned, none, Int.cast_zero, zero_mul, abs_zero]
    exact ⟨⟨0, 1, Nat.one_pos, by simp, rfl⟩, fun _ => .inl rfl⟩
  next =>
    obtain ⟨sign, rounds⟩ := rounded_ofScaled (f := f) (total < 0) total.natAbs unit
    rw [Nat.cast_natAbs, Int.cast_abs] at rounds
    rw [abs_mul, abs_of_pos (zpow_pos (zero_lt_two (α := ℚ)) unit)]
    refine ⟨rounds, fun negative => .inr ?_⟩
    rw [sign, decide_eq_true_eq] at negative
    exact mul_neg_of_neg_of_pos (by exact_mod_cast negative) (by positivity)

/-- The difference of finite numbers. -/
theorem rounds_sub {x y : Binary f} (finite : x.isFinite = true) (finite' : y.isFinite = true) :
    f.Rounds |x.value - y.value| (sub x y).magnitude ∧
      ((sub x y).isNegative = true → (sub x y).magnitude = 0 ∨ x.value - y.value < 0) := by
  have sum := rounds_add finite ((isFinite_neg y).trans finite')
  rw [value_neg finite', ← sub_eq_add_neg] at sum
  simpa only [sub, isNaN_of_isFinite finite, isNaN_of_isFinite finite', Bool.false_eq_true,
    if_false] using sum

/-- Equal numbers have no difference. -/
theorem magnitude_sub_of_equal {x y : Binary f} (finite : x.isFinite = true)
    (finite' : y.isFinite = true) (same : equal x y = true) : (sub y x).magnitude = 0 := by
  simp only [equal, Bool.and_eq_true, beq_iff_eq] at same
  have value : y.value = x.value := by
    rw [value_eq_placeValue finite', value_eq_placeValue finite, same.2]
  have rounds := (rounds_sub finite' finite).1
  rw [value, sub_self, abs_zero] at rounds
  rw [rounds.eq_zero_iff]
  positivity

/-- The sum of finite numbers, when it is not less than zero. -/
theorem rounded_add {x y : Binary f} (finite : x.isFinite = true) (finite' : y.isFinite = true)
    (nonneg : 0 ≤ x.value + y.value) :
    f.Rounds (x.value + y.value) (add x y).magnitude ∧
      ((add x y).isNegative = true → (add x y).magnitude = 0) := by
  obtain ⟨rounds, sign⟩ := rounds_add finite finite'
  rw [abs_of_nonneg nonneg] at rounds
  exact ⟨rounds, fun negative => (sign negative).resolve_right (not_lt.2 nonneg)⟩

/-- The difference of finite numbers, the first of which is not the lesser one. -/
theorem rounded_sub {x y : Binary f} (finite : x.isFinite = true) (finite' : y.isFinite = true)
    (le : y.value ≤ x.value) :
    f.Rounds (x.value - y.value) (sub x y).magnitude ∧
      ((sub x y).isNegative = true → (sub x y).magnitude = 0) := by
  obtain ⟨rounds, sign⟩ := rounds_sub finite finite'
  rw [abs_of_nonneg (sub_nonneg.2 le)] at rounds
  exact ⟨rounds, fun negative => (sign negative).resolve_right (not_lt.2 (sub_nonneg.2 le))⟩

/-! ## What is not finite -/

theorem isFinite_signed {magnitude : Nat} (small : magnitude < f.signCode) (negative : Bool) :
    (signed negative magnitude : Binary f).isFinite = decide (magnitude < f.infinityCode) := by
  rw [isFinite, magnitude_signed small]

theorem nanCode_bounds (f : Format) : f.infinityCode < f.nanCode ∧ f.nanCode < f.signCode := by
  cases f <;> decide

theorem isFinite_infinity (negative : Bool) : (infinity negative : Binary f).isFinite = false := by
  rw [infinity, isFinite_signed f.infinityCode_lt_signCode, decide_eq_false (lt_irrefl _)]

theorem isFinite_nan (negative : Bool) :
    (signed negative f.nanCode : Binary f).isFinite = false := by
  obtain ⟨above, below⟩ := nanCode_bounds f
  rw [isFinite_signed below, decide_eq_false above.asymm]

theorem isFinite_invalid : (invalid : Binary f).isFinite = false := isFinite_nan true

/-- A sum is finite only if both its terms are. -/
theorem isFinite_of_add {x y : Binary f} (finite : (add x y).isFinite = true) :
    x.isFinite = true ∧ y.isFinite = true := by
  cases first : x.isFinite
  · refine absurd finite (Bool.eq_false_iff.1 ?_)
    rcases unpack_of_not_finite first with ⟨-, parts⟩ | ⟨-, parts⟩
    · simpa only [add, parts] using first
    · cases second : y.isFinite
      · rcases unpack_of_not_finite second with ⟨-, parts'⟩ | ⟨-, parts'⟩
        · simpa only [add, parts, parts'] using second
        · simp only [add, parts, parts']
          split
          · exact first
          · exact isFinite_invalid
      · obtain ⟨m, e, parts', -⟩ := exists_unpack second
        simpa only [add, parts, parts'] using first
  · obtain ⟨m, e, parts, -⟩ := exists_unpack first
    refine ⟨rfl, ?_⟩
    by_contra infinite
    have second := Bool.eq_false_iff.2 infinite
    refine infinite ?_
    rcases unpack_of_not_finite second with ⟨-, parts'⟩ | ⟨-, parts'⟩
    · simpa only [add, parts, parts'] using finite
    · simpa only [add, parts, parts'] using finite

theorem isFinite_of_sub {x y : Binary f} (finite : (sub x y).isFinite = true) :
    x.isFinite = true ∧ y.isFinite = true := by
  unfold sub at finite
  split at finite
  next number =>
    rw [isNaN_of_isFinite finite] at number
    cases number
  split at finite
  next number =>
    rw [isNaN_of_isFinite finite] at number
    cases number
  · rw [← isFinite_neg y]
    exact isFinite_of_add finite

/-- A product is finite only if both its factors are. -/
theorem isFinite_of_mul {x y : Binary f} (finite : (mul x y).isFinite = true) :
    x.isFinite = true ∧ y.isFinite = true := by
  cases first : x.isFinite
  · refine absurd finite (Bool.eq_false_iff.1 ?_)
    rcases unpack_of_not_finite first with ⟨-, parts⟩ | ⟨-, parts⟩
    · simpa only [mul, parts] using first
    · cases second : y.isFinite
      · rcases unpack_of_not_finite second with ⟨-, parts'⟩ | ⟨-, parts'⟩
        · simpa only [mul, parts, parts'] using second
        · simpa only [mul, parts, parts'] using isFinite_infinity _
      · obtain ⟨m, e, parts', -⟩ := exists_unpack second
        simp only [mul, parts, parts']
        split
        · exact isFinite_invalid
        · exact isFinite_infinity _
  · obtain ⟨m, e, parts, -⟩ := exists_unpack first
    refine ⟨rfl, ?_⟩
    by_contra infinite
    have second := Bool.eq_false_iff.2 infinite
    refine Bool.eq_false_iff.1 ?_ finite
    rcases unpack_of_not_finite second with ⟨-, parts'⟩ | ⟨-, parts'⟩
    · simpa only [mul, parts, parts'] using second
    · simp only [mul, parts, parts']
      split
      · exact isFinite_invalid
      · exact isFinite_infinity _

/-- What is not finite has no finite quotient. -/
theorem isFinite_of_div {x y : Binary f} (finite : (div x y).isFinite = true) :
    x.isFinite = true := by
  by_contra infinite
  have first := Bool.eq_false_iff.2 infinite
  rcases unpack_of_not_finite first with ⟨-, parts⟩ | ⟨-, parts⟩
  · refine infinite ?_
    simpa only [div, parts] using finite
  · refine Bool.eq_false_iff.1 ?_ finite
    cases second : y.isFinite
    · rcases unpack_of_not_finite second with ⟨-, parts'⟩ | ⟨-, parts'⟩
      · simpa only [div, parts, parts'] using second
      · simpa only [div, parts, parts'] using isFinite_invalid
    · obtain ⟨m, e, parts', -⟩ := exists_unpack second
      simpa only [div, parts, parts'] using isFinite_infinity _

theorem isFinite_of_convert {x : Binary f} (finite : (convert x : Binary g).isFinite = true) :
    x.isFinite = true := by
  by_contra infinite
  refine Bool.eq_false_iff.1 ?_ finite
  rcases unpack_of_not_finite (Bool.eq_false_iff.2 infinite) with ⟨-, parts⟩ | ⟨-, parts⟩
  · simpa only [convert, parts] using isFinite_nan _
  · simpa only [convert, parts] using isFinite_infinity _

/-- A finite number divided by an infinite one is zero. -/
theorem div_infinite {x y : Binary f} (finite : x.isFinite = true) (infinite : y.isFinite = false)
    (number : y.isNaN = false) : div x y = zero (x.isNegative != y.isNegative) := by
  obtain ⟨m, e, parts, -⟩ := exists_unpack finite
  rcases unpack_of_not_finite infinite with ⟨none, -⟩ | ⟨-, parts'⟩
  · rw [number] at none
    cases none
  · simp only [div, parts, parts']

/-! ## Natural numbers -/

/-- A natural number of fewer bits than the format has is exact. -/
theorem value_ofNat {n : Nat} (small : n < 2 * f.fractionCodes) :
    (ofNat n : Binary f).isFinite = true ∧ (ofNat n : Binary f).value = n := by
  obtain ⟨sign, rounds⟩ := rounded_ofNat (f := f) n
  obtain ⟨finite, exact⟩ := f.magnitudeValue_roundMagnitude small
  have magnitude : (ofNat n : Binary f).magnitude = f.roundMagnitude n 1 :=
    magnitude_signed (f.rounds_natCast n).lt_signCode _
  have isFinite : (ofNat n : Binary f).isFinite = true := by
    rw [Binary.isFinite, magnitude]
    exact decide_eq_true finite
  refine ⟨isFinite, ?_⟩
  rw [value_eq isFinite, sign, size, magnitude, exact]
  rfl

theorem size_ofNat {n : Nat} (small : n < 2 * f.fractionCodes) : (ofNat n : Binary f).size = n := by
  obtain ⟨finite, exact⟩ := value_ofNat small
  rwa [value_eq finite, (rounded_ofNat n).sign] at exact

/-- A number that stands for such a natural number is written so. -/
theorem eq_ofNat {x : Binary f} (sign : x.isNegative = false) {n : Nat}
    (small : n < 2 * f.fractionCodes) (same : x.size = n) : x = ofNat n := by
  refine eq_of_magnitude (sign.trans (rounded_ofNat n).sign.symm) ?_
  refine f.magnitudeValue_strictMono.injective ?_
  rw [← size, same, ← size, size_ofNat small]

/-- Such a natural number is read as it was written. -/
theorem toNat_ofNat {n : Nat} (small : n < 2 * f.fractionCodes) :
    toNat (ofNat n : Binary f) = n := by
  obtain ⟨m, e, parts, sized⟩ := exists_unpack (value_ofNat (f := f) small).1
  rw [(rounded_ofNat n).sign] at parts
  have ratio := Format.scaled_ratio m 1 e
  rw [Nat.cast_one, div_one, sized, size_ofNat small] at ratio
  have pos := Format.scaled_snd_pos m one_pos e
  rw [div_eq_iff (by exact_mod_cast pos.ne')] at ratio
  simp only [toNat, parts]
  exact Nat.div_eq_of_eq_mul_left pos (by exact_mod_cast ratio)

/-- The successor of such a natural number is its sum with one. -/
theorem add_ofNat_one {n : Nat} (small : n + 1 < 2 * f.fractionCodes) :
    add (ofNat n) (ofNat 1) = (ofNat (n + 1) : Binary f) := by
  obtain ⟨finite, value⟩ := value_ofNat (f := f) (Nat.lt_of_succ_lt small)
  obtain ⟨finite', value'⟩ := value_ofNat (f := f) (n := 1) (by omega)
  have total : (ofNat n : Binary f).value + (ofNat 1 : Binary f).value = (n + 1 : Nat) := by
    rw [value, value', Nat.cast_add]
  obtain ⟨rounds, sign⟩ := rounded_add finite finite' (total ▸ Nat.cast_nonneg _)
  rw [total] at rounds
  obtain ⟨-, exact⟩ := rounded_ofNat (f := f) (n + 1)
  have size : (add (ofNat n) (ofNat 1) : Binary f).size = (n + 1 : Nat) := by
    rw [Binary.size, rounds.unique exact, ← Binary.size, size_ofNat small]
  refine eq_ofNat ?_ small size
  by_contra negative
  rw [Binary.size, sign (Bool.eq_true_of_not_eq_false negative), f.magnitudeValue_zero] at size
  exact Nat.succ_ne_zero n (by exact_mod_cast size.symm)

/-- The whole part of a number is a natural number that is not greater. -/
theorem floor_eq_ofNat {x : Binary f} (finite : x.isFinite = true) (sign : x.isNegative = false)
    {n : Nat} (small : n < 2 * f.fractionCodes) (le : x.size ≤ n) :
    ∃ whole : Nat, floor x = ofNat whole ∧ (whole : ℚ) ≤ x.size := by
  obtain ⟨m, e, parts, sized⟩ := exists_unpack finite
  simp only [floor, toWhole, parts, sign, id_eq, Bool.false_and, Bool.false_eq_true, if_false]
  split
  next whole =>
    obtain ⟨k, rfl⟩ := Int.eq_ofNat_of_zero_le whole
    have same : x.size = (m * 2 ^ k : Nat) := by
      rw [← sized, zpow_natCast]
      push_cast
      rfl
    have below : m * 2 ^ k ≤ n := by
      rw [same] at le
      exact_mod_cast le
    exact ⟨m * 2 ^ k, eq_ofNat sign (below.trans_lt small) same, same.ge⟩
  next fraction =>
    obtain ⟨k, opposite⟩ := Int.eq_ofNat_of_zero_le (a := -e) (by omega)
    refine ⟨_, rfl, ?_⟩
    obtain rfl : e = -(k : Int) := by omega
    rw [← sized, neg_neg, Int.toNat_natCast, Nat.pow_eq, zpow_neg, zpow_natCast, ← div_eq_mul_inv]
    exact_mod_cast Nat.cast_div_le (α := ℚ) (m := m) (n := 2 ^ k)

end Binary

end MapStyle
