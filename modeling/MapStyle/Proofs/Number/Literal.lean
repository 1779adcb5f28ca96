import Mathlib
import MapStyle.Proofs.Number.Shortest

/-!
# Literals of finite numbers

Digits are written positionally or with an exponent, and stand for the same number either way.
So the literal of a finite number is a decimal of its sign that rounds to its size, and no two
finite numbers have one literal.
-/

namespace MapStyle

open Text

namespace Decimal

/-- The number a literal stands for, without its sign. -/
def size (d : Decimal) : ℚ := d.digits * 10 ^ d.exponent

/-- A text is a literal of a size, with either sign before it. -/
def Unsigned (text : List Char) (q : ℚ) : Prop :=
  ∀ (sign : List Char) (negative : Bool), Sign sign negative →
    ∃ d, Literal (sign ++ text) d ∧ d.negative = negative ∧ d.size = q

variable {whole fraction mantissa power : List Char} {exponent : Int}

theorem unsigned_parts (digits : Mantissa mantissa whole fraction) (scaled : Power power exponent) :
    Unsigned (mantissa ++ power)
      (naturalOf (whole ++ fraction) * 10 ^ (exponent - fraction.length)) := by
  intro sign negative signed
  refine ⟨ofParts negative whole fraction exponent, ?_, rfl, rfl⟩
  rw [← List.append_assoc]
  exact .parts signed digits scaled

theorem unsigned_mantissa (digits : Mantissa mantissa whole fraction) :
    Unsigned mantissa (naturalOf (whole ++ fraction) * 10 ^ (-(fraction.length : Int))) := by
  have parts := unsigned_parts digits .absent
  rwa [List.append_nil, zero_sub] at parts

/-- A literal stands for one number. -/
theorem Literal.unique {text : List Char} {d e : Decimal} (literal : Literal text d)
    (literal' : Literal text e) : d = e := by
  have stops : Stops goesOn [] := fun _ first => nomatch first
  have same := (literal.scanned stops).symm.trans (literal'.scanned stops)
  cases same
  rfl

/-! ## Digits -/

theorem naturalOf_toDigits (n : Nat) : naturalOf (Nat.toDigits 10 n) = n :=
  Nat.ofDigitChars_ten_toDigits

theorem naturalOf_zeros (k : Nat) (digits : List Char) :
    naturalOf (List.replicate k '0' ++ digits) = naturalOf digits := by
  show Nat.ofDigitChars 10 _ 0 = Nat.ofDigitChars 10 _ 0
  rw [Nat.ofDigitChars_append, Nat.ofDigitChars_replicate_zero, Nat.mul_zero]

theorem naturalOf_append_zeros (digits : List Char) (k : Nat) :
    naturalOf (digits ++ List.replicate k '0') = 10 ^ k * naturalOf digits := by
  show Nat.ofDigitChars 10 _ 0 = 10 ^ k * Nat.ofDigitChars 10 _ 0
  rw [Nat.ofDigitChars_append, Nat.ofDigitChars_replicate_zero]

theorem run_toDigits (n : Nat) : Run Char.isDigit (Nat.toDigits 10 n) :=
  fun _ member => Nat.isDigit_of_mem_toDigits (by decide) (by decide) member

theorem run_zeros (k : Nat) : Run Char.isDigit (List.replicate k '0') := by
  intro c member
  rw [List.eq_of_mem_replicate member]
  rfl

/-- An exponent is written as an integer. -/
theorem power_toString (exponent : Int) : Power ('e' :: (toString exponent).toList) exponent := by
  rw [Int.toString_eq_repr, Int.repr_eq_if]
  split
  next nonneg =>
    have power : Power ('e' :: ([] ++ Nat.toDigits 10 exponent.toNat)) _ :=
      .marked (.inl rfl) .absent (run_toDigits _) Nat.toDigits_ne_nil
    rw [if_neg Bool.false_ne_true, naturalOf_toDigits, Int.toNat_of_nonneg nonneg] at power
    rwa [Nat.toList_repr]
  next negative =>
    have power : Power ('e' :: (['-'] ++ Nat.toDigits 10 (-exponent).toNat)) _ :=
      .marked (.inl rfl) .minus (run_toDigits _) Nat.toDigits_ne_nil
    rw [if_pos rfl, naturalOf_toDigits, Int.toNat_of_nonneg (by omega), neg_neg] at power
    rw [String.toList_append, Nat.toList_repr]
    exact power

end Decimal

namespace Digits

open Decimal

/-! ## Notations -/

theorem run_chars (d : Digits) : Run Char.isDigit d.chars := run_toDigits d.digits

theorem chars_ne_nil (d : Digits) : d.chars ≠ [] := Nat.toDigits_ne_nil

theorem naturalOf_chars (d : Digits) : naturalOf d.chars = d.digits := naturalOf_toDigits _

/-- A whole number with a decimal. -/
theorem unsigned_whole {d : Digits} (whole : 0 ≤ d.exponent) :
    Unsigned (d.positional ++ ['.', '0']) d.value := by
  obtain ⟨k, exponent⟩ := Int.eq_ofNat_of_zero_le whole
  have before : Run Char.isDigit (d.chars ++ List.replicate k '0') :=
    List.forall_mem_append.2 ⟨d.run_chars, run_zeros k⟩
  have mantissa := unsigned_mantissa (.point before (run_zeros 1) (.inr (List.cons_ne_nil _ _)))
  have zeros : d.chars ++ List.replicate k '0' ++ List.replicate 1 '0' =
      d.chars ++ List.replicate (k + 1) '0' := by
    rw [List.append_assoc, List.replicate_append_replicate]
  have same : ((10 ^ (k + 1) * d.digits : Nat) : ℚ) * 10 ^ (-((1 : Nat) : Int)) = d.value := by
    rw [value, exponent, zpow_natCast]
    push_cast
    rw [zpow_neg_one]
    ring
  rw [zeros, naturalOf_append_zeros, naturalOf_chars, List.length_replicate, same] at mantissa
  rw [positional, if_pos whole, exponent]
  exact mantissa

/-- A number with a fraction. -/
theorem unsigned_fraction {d : Digits} (fraction : d.exponent < 0) :
    Unsigned d.positional d.value := by
  obtain ⟨k, exponent⟩ : ∃ k : Nat, d.exponent = -(k : Int) :=
    ⟨(-d.exponent).toNat, by omega⟩
  rw [positional, if_neg (not_le.2 fraction), value, exponent, neg_neg, Int.toNat_natCast]
  simp only
  split
  next less =>
    have parts := List.take_append_drop (d.chars.length - k) d.chars
    obtain ⟨before, after⟩ := List.forall_mem_append.1 (parts.symm ▸ d.run_chars)
    have length : (d.chars.drop (d.chars.length - k)).length = k := by
      rw [List.length_drop]
      omega
    have nonempty : d.chars.drop (d.chars.length - k) ≠ [] := by
      refine List.ne_nil_of_length_pos ?_
      omega
    have mantissa := unsigned_mantissa (.point before after (.inr nonempty))
    rwa [parts, naturalOf_chars, length] at mantissa
  next more =>
    have after : Run Char.isDigit (List.replicate (k - d.chars.length) '0' ++ d.chars) :=
      List.forall_mem_append.2 ⟨run_zeros _, d.run_chars⟩
    have length : (List.replicate (k - d.chars.length) '0' ++ d.chars).length = k := by
      rw [List.length_append, List.length_replicate]
      omega
    have mantissa := unsigned_mantissa (.point (run_zeros 1) after (.inl (List.cons_ne_nil _ _)))
    rwa [naturalOf_zeros, naturalOf_zeros, naturalOf_chars, length] at mantissa

/-- A number with an exponent. -/
theorem unsigned_scientific (d : Digits) : Unsigned d.scientific d.value := by
  have digits := d.naturalOf_chars
  have run := d.run_chars
  have power := power_toString d.firstExponent
  unfold scientific
  split
  next none => exact absurd none d.chars_ne_nil
  next c one =>
    rw [one] at run digits
    have literal := unsigned_parts (.whole run (List.cons_ne_nil c [])) power
    have exponent : d.firstExponent - (([] : List Char).length : Int) = d.exponent := by
      simp [firstExponent, one]
    rwa [List.append_nil, digits, exponent] at literal
  next c rest _ several =>
    rw [several] at run digits
    obtain ⟨first, others⟩ := List.forall_mem_cons.1 run
    have literal := unsigned_parts (.point (List.forall_mem_singleton.2 first) others
      (.inl (List.cons_ne_nil c []))) power
    have exponent : d.firstExponent - (rest.length : Int) = d.exponent := by
      simp [firstExponent, several]
    rwa [List.singleton_append, List.singleton_append, digits, exponent] at literal

end Digits

namespace Binary

variable {f : Format}

/-- A finite number is unpacked to a number of units of its binade. -/
theorem exists_units {x : Binary f} (finite : x.isFinite = true) :
    ∃ units unit, x.unpack = .finite x.isNegative units unit ∧ f.unitExponent ≤ unit ∧
      units < 2 * f.fractionCodes ∧ (f.unitExponent < unit → f.fractionCodes ≤ units) ∧
      x.magnitude = f.place unit units := by
  have parts := Nat.div_add_mod' x.magnitude f.fractionCodes
  have inside := Nat.mod_lt x.magnitude f.fractionCodes_pos
  simp only [unpack, isNaN_of_isFinite finite, finite, Bool.false_eq_true, if_false, if_true]
  split
  next none =>
    rw [none, Nat.zero_mul] at parts
    refine ⟨_, _, rfl, le_rfl, by omega, fun above => absurd above (lt_irrefl _), ?_⟩
    rw [Format.place, sub_self, Int.toNat_zero, Nat.zero_mul]
    exact parts.symm
  next some =>
    obtain ⟨binade, field⟩ := Nat.exists_eq_succ_of_ne_zero some
    refine ⟨_, _, rfl, by omega, by omega, fun _ => by omega, ?_⟩
    rw [field, Nat.succ_mul] at parts
    rw [Format.place, add_sub_cancel_left, Int.toNat_natCast, field, Nat.succ_sub_one]
    omega

/-- What is written for a positive number in a literal. -/
def positiveLiteral (d : Digits) : List Char :=
  if d.firstExponent < -4 ∨ 16 ≤ d.firstExponent then d.scientific
  else if 0 ≤ d.exponent then d.positional ++ ['.', '0']
  else d.positional

theorem unsigned_positiveLiteral (d : Digits) : Decimal.Unsigned (positiveLiteral d) d.value := by
  unfold positiveLiteral
  split
  next => exact d.unsigned_scientific
  next =>
    split
    next whole => exact Digits.unsigned_whole whole
    next fraction => exact Digits.unsigned_fraction (not_le.1 fraction)

/-- What is written for a number of units in a literal, apart from the sign. -/
def unsignedLiteral (f : Format) (units : Nat) (unit : Int) : List Char :=
  if units = 0 then ['0', '.', '0'] else positiveLiteral (Digits.shortest f units unit)

theorem literal_eq {x : Binary f} {units : Nat} {unit : Int}
    (unpacked : x.unpack = .finite x.isNegative units unit) :
    (literal x).toList = (if x.isNegative then ['-'] else []) ++ unsignedLiteral f units unit := by
  have text : literal x = String.ofList (if x.isNegative then '-' :: unsignedLiteral f units unit
      else unsignedLiteral f units unit) := by
    rw [literal, textWith, unpacked]
    rfl
  rw [text, String.toList_ofList]
  split
  next => rfl
  next => rfl

theorem sign_eq (negative : Bool) : Decimal.Sign (if negative then ['-'] else []) negative := by
  cases negative with
  | false => exact .absent
  | true => exact .minus

/-- The literal of a finite number is a decimal that rounds to the number. -/
theorem exists_literal {x : Binary f} (finite : x.isFinite = true) :
    ∃ d, Decimal.Literal (literal x).toList d ∧ d.negative = x.isNegative ∧
      f.Rounds d.size x.magnitude := by
  obtain ⟨units, unit, unpacked, least, most, full, placed⟩ := exists_units finite
  obtain ⟨q, unsigned, rounds⟩ : ∃ q, Decimal.Unsigned (unsignedLiteral f units unit) q ∧
      f.Rounds q x.magnitude := by
    rcases Nat.eq_zero_or_pos units with rfl | pos
    · have vanishes : x.magnitude = 0 := by
        have lowest : unit = f.unitExponent := by
          by_contra above
          have := full (lt_of_le_of_ne least (Ne.symm above))
          have := f.fractionCodes_pos
          omega
        rw [placed, lowest, Format.place, sub_self, Int.toNat_zero, Nat.zero_mul]
      have point := Decimal.unsigned_mantissa (.point (Decimal.run_zeros 1) (Decimal.run_zeros 1)
        (.inl (List.cons_ne_nil _ _)))
      refine ⟨_, point, ?_⟩
      have none : Decimal.naturalOf (List.replicate 1 '0' ++ List.replicate 1 '0') = 0 := rfl
      rw [none, vanishes, Nat.cast_zero, zero_mul, ← Nat.cast_zero]
      exact f.rounds_natCast 0
    · have finite : f.place unit units ≤ f.infinityCode := by
        rw [← placed]
        exact (of_decide_eq_true finite).le
      refine ⟨_, ?_, placed ▸ (Digits.around_shortest pos most).rounds pos least most full finite⟩
      rw [unsignedLiteral, if_neg pos.ne']
      exact unsigned_positiveLiteral _
  obtain ⟨d, literal, negative, rfl⟩ := unsigned _ _ (sign_eq x.isNegative)
  exact ⟨d, literal_eq unpacked ▸ literal, negative, rounds⟩

/-- Finite numbers are told apart by their literals. -/
theorem literal_injective {x y : Binary f} (finite : x.isFinite = true)
    (finite' : y.isFinite = true) (same : literal x = literal y) : x = y := by
  obtain ⟨d, written, sign, rounds⟩ := exists_literal finite
  obtain ⟨e, written', sign', rounds'⟩ := exists_literal finite'
  obtain rfl := written.unique (same ▸ written')
  exact eq_of_magnitude (sign.symm.trans sign') (rounds.unique rounds')

end Binary

end MapStyle
