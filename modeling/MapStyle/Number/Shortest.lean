import MapStyle.Number.Binary

/-!
# Shortest decimal digits

The decimal number with the fewest digits that rounds to a given binary number, and
of those the nearest one. Grids of one, two, three, … digits are tried in turn; if
a point of a grid lies in the interval of numbers that round to the given one, so
does one of the two grid points next to it.
-/

namespace MapStyle

/-- The positive decimal number `digits * 10 ^ exponent`. -/
structure Digits where
  digits : Nat
  exponent : Int
deriving DecidableEq, Repr

namespace Digits

/-- The exponent of the first decimal digit of a positive fraction. -/
def leadingExponent (numerator denominator : Nat) : Int :=
  if denominator ≤ numerator then Binary.decimalLength (numerator / denominator) - 1
  else
    let length := Binary.decimalLength (denominator / numerator)
    if denominator = numerator * Nat.pow 10 (length - 1) then -(length - 1 : Nat) else -length

/-- The point of a grid that rounds to `significand * 2 ^ exponent`, if one of the two
neighbours does; the nearer of both, the upper one when they are equally near. The interval of
numbers that round to the given one reaches half a unit up and, below, half a unit of the
binade underneath when `lowest` holds; its ends belong to it when the significand is even. -/
def onGrid? (significand : Nat) (exponent : Int) (lowest : Bool) (grid : Int) : Option Nat :=
  -- in quarters of the last place, on the scale of the grid
  let (unit, one) := Format.scaled 1 1 (exponent - 2)
  let (spacing, scale) :=
    if 0 ≤ grid then (Nat.pow 10 grid.toNat, 1) else (1, Nat.pow 10 (-grid).toNat)
  let quarter := unit * scale
  let point := one * spacing
  let value := 4 * significand * quarter
  let low := (4 * significand - if lowest then 1 else 2) * quarter
  let high := (4 * significand + 2) * quarter
  let even := significand % 2 = 0
  let inside (n : Nat) : Bool :=
    if even then low ≤ n * point && n * point ≤ high else low < n * point && n * point < high
  let below := value / point
  let above := below + 1
  match inside below, inside above with
  | true, true => some (if value - below * point < above * point - value then below else above)
  | true, false => some below
  | false, true => some above
  | false, false => none

/-- Move factors of ten from the digits to the exponent, at most `fuel` times. -/
def strip : (fuel : Nat) → Digits → Digits
  | 0, d => d
  | fuel + 1, d =>
    if d.digits ≠ 0 ∧ d.digits % 10 = 0 then strip fuel ⟨d.digits / 10, d.exponent + 1⟩ else d

/-- Try grids of `count` digits and more, at most `fuel` of them. -/
def search (significand : Nat) (exponent : Int) (lowest : Bool) (lead : Int) :
    (fuel : Nat) → (count : Nat) → Digits
  | 0, _ => ⟨significand, exponent⟩
  | fuel + 1, count =>
    let grid := lead - count + 1
    match onGrid? significand exponent lowest grid with
    | some digits => strip count ⟨digits, grid⟩
    | none => search significand exponent lowest lead fuel (count + 1)

/-- The fewest digits that read back as the positive number `significand * 2 ^ exponent` of a
format. Seventeen digits tell all doubles apart. -/
def shortest (f : Format) (significand : Nat) (exponent : Int) : Digits :=
  let (numerator, denominator) := Format.scaled significand 1 exponent
  let lowest := significand = f.fractionCodes ∧ f.unitExponent < exponent
  search significand exponent lowest (leadingExponent numerator denominator) 17 1

/-- The digits as characters. -/
def chars (d : Digits) : List Char := Nat.toDigits 10 d.digits

/-- The exponent of the first digit. -/
def firstExponent (d : Digits) : Int := d.exponent + (d.chars.length - 1 : Nat)

/-- Positional notation: no exponent, and a point only before a fraction. -/
def positional (d : Digits) : List Char :=
  let digits := d.chars
  if 0 ≤ d.exponent then digits ++ List.replicate d.exponent.toNat '0'
  else
    let places := (-d.exponent).toNat
    if places < digits.length then
      digits.take (digits.length - places) ++ '.' :: digits.drop (digits.length - places)
    else '0' :: '.' :: List.replicate (places - digits.length) '0' ++ digits

/-- One digit, a point before further digits, and the exponent after `e`. -/
def scientific (d : Digits) : List Char :=
  let power := 'e' :: (toString d.firstExponent).toList
  match d.chars with
  | [] => []
  | [c] => c :: power
  | c :: rest => c :: '.' :: rest ++ power

end Digits

namespace Binary

variable {f : Format}

/-- Write a number, given the text of a positive one. -/
def textWith (positive : Digits → List Char) (zero : List Char) (x : Binary f) : String :=
  match x.unpack with
  | .nan _ => "NaN"
  | .infinite s => if s then "-inf" else "inf"
  | .finite s m e =>
    let text := if m = 0 then zero else positive (Digits.shortest f m e)
    String.ofList (if s then '-' :: text else text)

/-- The shortest text: positional whatever the magnitude, whole numbers without a point. -/
def text (x : Binary f) : String := textWith Digits.positional ['0'] x

/-- The text that always tells a floating-point number: whole numbers have a decimal, and
magnitudes below `10 ^ -4` or from `10 ^ 16` an exponent. -/
def literal (x : Binary f) : String :=
  textWith (fun d =>
    if d.firstExponent < -4 ∨ 16 ≤ d.firstExponent then d.scientific
    else if 0 ≤ d.exponent then d.positional ++ ['.', '0']
    else d.positional) ['0', '.', '0'] x

end Binary

end MapStyle
