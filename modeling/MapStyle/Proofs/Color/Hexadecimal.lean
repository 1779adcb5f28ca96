import MapStyle.Color.Notation
import MapStyle.Number.Machine
import MapStyle.Proofs.Text.Runs
import Mathlib.Data.List.Basic

/-!
# Colors in hexadecimal notation

What hexadecimal digits denote as a color, apart from the code that reads them: two digits are a
byte, three or four bytes are a color, and a short form is the form in which every digit is
written twice.
-/

namespace MapStyle.Color

open Text

/-- The hexadecimal digits in order. -/
def sixteen : List Char :=
  ['0', '1', '2', '3', '4', '5', '6', '7', '8', '9', 'a', 'b', 'c', 'd', 'e', 'f']

/-- A character is the hexadecimal digit of a number, in either case. -/
def HexDigit (c : Char) (value : Nat) : Prop := sixteen[value]? = some c.toLower

/-- Two characters are the hexadecimal digits of a byte. -/
inductive HexByte : Char → Char → Nat → Prop
  | digits {first second : Char} {high low : Nat} (ofFirst : HexDigit first high)
      (ofSecond : HexDigit second low) : HexByte first second (16 * high + low)

/-- A byte as a channel of a color. -/
def share (byte : Nat) : Single := Scalar.ofNat byte / Scalar.ofNat 255

/-- What the digits after `#` denote: two a channel, where a missing alpha is opaque; or one a
channel, each of which stands for two of it. -/
inductive Hexadecimal : List Char → Color Single → Prop
  | withoutAlpha {r₁ r₂ g₁ g₂ b₁ b₂ : Char} {red green blue : Nat} (ofRed : HexByte r₁ r₂ red)
      (ofGreen : HexByte g₁ g₂ green) (ofBlue : HexByte b₁ b₂ blue) :
      Hexadecimal [r₁, r₂, g₁, g₂, b₁, b₂] ⟨share red, share green, share blue, Scalar.one⟩
  | withAlpha {r₁ r₂ g₁ g₂ b₁ b₂ a₁ a₂ : Char} {red green blue alpha : Nat}
      (ofRed : HexByte r₁ r₂ red) (ofGreen : HexByte g₁ g₂ green) (ofBlue : HexByte b₁ b₂ blue)
      (ofAlpha : HexByte a₁ a₂ alpha) :
      Hexadecimal [r₁, r₂, g₁, g₂, b₁, b₂, a₁, a₂]
        ⟨share red, share green, share blue, share alpha⟩
  | short {digits : List Char} {color : Color Single}
      (few : digits.length = 3 ∨ digits.length = 4)
      (long : Hexadecimal (digits.flatMap fun digit => [digit, digit]) color) :
      Hexadecimal digits color

theorem hexDigit_of_isHexDigit {c : Char} (digit : isHexDigit c = true) :
    HexDigit c (hexValue c) := by
  simp only [isHexDigit, Char.isDigit, Bool.or_eq_true, Bool.and_eq_true, decide_eq_true_eq]
    at digit
  rcases digit with (bounds | bounds) | bounds
  · refine of_codes (p := fun c => HexDigit c (hexValue c)) 48 57 (fun n above below => ?_)
      (UInt32.le_iff_toNat_le.1 bounds.1) (UInt32.le_iff_toNat_le.1 bounds.2)
    interval_cases n
    all_goals rfl
  · refine of_codes (p := fun c => HexDigit c (hexValue c)) 97 102 (fun n above below => ?_)
      (UInt32.le_iff_toNat_le.1 bounds.1) (UInt32.le_iff_toNat_le.1 bounds.2)
    interval_cases n
    all_goals rfl
  · refine of_codes (p := fun c => HexDigit c (hexValue c)) 65 70 (fun n above below => ?_)
      (UInt32.le_iff_toNat_le.1 bounds.1) (UInt32.le_iff_toNat_le.1 bounds.2)
    interval_cases n
    all_goals rfl

theorem HexDigit.reads {c : Char} {value : Nat} (digit : HexDigit c value) :
    isHexDigit c = true ∧ hexValue c = value := by
  have each : ∀ entry ∈ sixteen.zipIdx,
      (isHexDigit entry.1 = true ∧ hexValue entry.1 = entry.2) ∧
        isHexDigit entry.1.toUpper = true ∧ hexValue entry.1.toUpper = entry.2 := by decide
  obtain ⟨own, upper⟩ := each (c.toLower, value) (List.mk_mem_zipIdx_iff_getElem?.2 digit)
  rcases eq_or_upper (c := c) rfl with same | same
  · rw [same]
    exact own
  · rw [same]
    exact upper

theorem HexByte.reads {first second : Char} {byte : Nat} (ofByte : HexByte first second byte) :
    isHexDigit first = true ∧ isHexDigit second = true ∧ hexNatural [first, second] = byte := by
  cases ofByte with
  | digits ofFirst ofSecond =>
    obtain ⟨first_digit, rfl⟩ := ofFirst.reads
    obtain ⟨second_digit, rfl⟩ := ofSecond.reads
    refine ⟨first_digit, second_digit, ?_⟩
    simp only [hexNatural, List.foldl_cons, List.foldl_nil, Nat.mul_zero, Nat.zero_add]

theorem hexByte_of_digits {first second : Char} (first_digit : isHexDigit first = true)
    (second_digit : isHexDigit second = true) :
    HexByte first second (hexNatural [first, second]) := by
  have ofByte : HexByte first second (16 * hexValue first + hexValue second) :=
    .digits (hexDigit_of_isHexDigit first_digit) (hexDigit_of_isHexDigit second_digit)
  rwa [← ofByte.reads.2.2] at ofByte

theorem ofBytes_full (red green blue : Nat) :
    (ofBytes red green blue 255 : Color Single) =
      ⟨share red, share green, share blue, Scalar.one⟩ := by
  have full : (Scalar.ofNat 255 / Scalar.ofNat 255 : Single) = Scalar.one := by decide
  simp only [ofBytes, share, full]

theorem hexNatural_repeated (digit : Char) : hexNatural [digit, digit] = 17 * hexValue digit := by
  simp only [hexNatural, List.foldl_cons, List.foldl_nil]
  omega

/-- A short form is read as its long form. -/
theorem ofHex?_repeated {digits : List Char} (few : digits.length = 3 ∨ digits.length = 4) :
    (ofHex? digits : Option (Color Single)) =
      ofHex? (digits.flatMap fun digit => [digit, digit]) := by
  have same_digits : (digits.flatMap fun digit => [digit, digit]).all isHexDigit =
      digits.all isHexDigit := by
    simp only [List.all_flatMap, List.all_cons, List.all_nil, Bool.and_true, Bool.and_self]
  rw [ofHex?, ofHex?, same_digits]
  congr 1
  rcases few with three | four
  · obtain ⟨r, g, b, rfl⟩ := List.length_eq_three.1 three
    simp only [List.flatMap_cons, List.flatMap_nil, List.cons_append, List.nil_append,
      ofHexDigits?, hexNatural_repeated]
  · obtain ⟨r, digits, rfl⟩ := List.exists_cons_of_length_eq_add_one four
    obtain ⟨g, b, a, rfl⟩ := List.length_eq_three.1 (Nat.succ.inj four)
    simp only [List.flatMap_cons, List.flatMap_nil, List.cons_append, List.nil_append,
      ofHexDigits?, hexNatural_repeated]

theorem length_repeated (digits : List Char) :
    (digits.flatMap fun digit => [digit, digit]).length = 2 * digits.length := by
  induction digits with
  | nil => rfl
  | cons digit digits ih =>
    rw [List.flatMap_cons, List.length_append, ih]
    simp only [List.length_cons, List.length_nil]
    omega

theorem hexadecimal_of_long {digits : List Char} {color : Color Single}
    (long : ¬(digits.length = 3 ∨ digits.length = 4)) (read : ofHex? digits = some color) :
    Hexadecimal digits color := by
  unfold ofHex? at read
  split at read
  next all =>
    rw [List.all_eq_true] at all
    unfold ofHexDigits? at read
    simp only at read
    split at read
    next => exact absurd (.inl rfl) long
    next => exact absurd (.inr rfl) long
    next r₁ r₂ g₁ g₂ b₁ b₂ =>
      simp only [List.forall_mem_cons] at all
      obtain ⟨red₁, red₂, green₁, green₂, blue₁, blue₂, -⟩ := all
      rw [ofBytes_full] at read
      cases read
      exact .withoutAlpha (hexByte_of_digits red₁ red₂) (hexByte_of_digits green₁ green₂)
        (hexByte_of_digits blue₁ blue₂)
    next r₁ r₂ g₁ g₂ b₁ b₂ a₁ a₂ =>
      simp only [List.forall_mem_cons] at all
      obtain ⟨red₁, red₂, green₁, green₂, blue₁, blue₂, alpha₁, alpha₂, -⟩ := all
      cases read
      exact .withAlpha (hexByte_of_digits red₁ red₂) (hexByte_of_digits green₁ green₂)
        (hexByte_of_digits blue₁ blue₂) (hexByte_of_digits alpha₁ alpha₂)
    next => cases read
  next => cases read

/-- Hexadecimal digits are read as what they denote. -/
theorem ofHex?_eq_some {digits : List Char} {color : Color Single} :
    ofHex? digits = some color ↔ Hexadecimal digits color := by
  constructor
  · intro read
    by_cases few : digits.length = 3 ∨ digits.length = 4
    · rw [ofHex?_repeated few] at read
      refine .short few (hexadecimal_of_long ?_ read)
      rw [length_repeated]
      omega
    · exact hexadecimal_of_long few read
  · intro denoted
    induction denoted with
    | withoutAlpha ofRed ofGreen ofBlue =>
      obtain ⟨red₁, red₂, rfl⟩ := ofRed.reads
      obtain ⟨green₁, green₂, rfl⟩ := ofGreen.reads
      obtain ⟨blue₁, blue₂, rfl⟩ := ofBlue.reads
      simp only [ofHex?, List.all_cons, List.all_nil, red₁, red₂, green₁, green₂, blue₁, blue₂,
        Bool.and_true, if_true, ofHexDigits?, ofBytes_full]
    | withAlpha ofRed ofGreen ofBlue ofAlpha =>
      obtain ⟨red₁, red₂, rfl⟩ := ofRed.reads
      obtain ⟨green₁, green₂, rfl⟩ := ofGreen.reads
      obtain ⟨blue₁, blue₂, rfl⟩ := ofBlue.reads
      obtain ⟨alpha₁, alpha₂, rfl⟩ := ofAlpha.reads
      simp only [ofHex?, List.all_cons, List.all_nil, red₁, red₂, green₁, green₂, blue₁, blue₂,
        alpha₁, alpha₂, Bool.and_true, if_true, ofHexDigits?]
      rfl
    | short few long ih =>
      rw [ofHex?_repeated few]
      exact ih

theorem Hexadecimal.all_digits {digits : List Char} {color : Color Single}
    (written : Hexadecimal digits color) : Run isHexDigit digits := by
  have read := ofHex?_eq_some.2 written
  unfold ofHex? at read
  split at read
  next all => exact List.all_eq_true.1 all
  next => cases read

end MapStyle.Color
