import MapStyle.Number.Scalar

/-!
# Binary floating point

The interchange formats `single` and `double`, as codes. Every arithmetic
operation is worked out exactly on natural numbers and rounded once, by
`Format.roundMagnitude`, to the nearest number with ties to even. Codes order the
magnitudes, so comparison is comparison of integers. A number that is no number
keeps the sign it was made with: an invalid operation makes a negative one, and an
operation with such an operand returns the operand, the left one first.
-/

namespace MapStyle

/-- The two binary interchange formats. -/
inductive Format where
  | single
  | double
deriving DecidableEq, Repr

namespace Format

/-- Bits of a significand, its leading one included. -/
def precision : Format → Nat
  | single => 24
  | double => 53

def exponentBits : Format → Nat
  | single => 8
  | double => 11

/-- Bits of a code: a sign, the exponent field and the significand without its leading one. -/
def width (f : Format) : Nat := f.precision + f.exponentBits

/-- The power of two that the subnormal numbers are multiples of. -/
def unitExponent : Format → Int
  | single => -149
  | double => -1074

/-- Steps of the fraction field, which are also the codes of one binade. -/
def fractionCodes (f : Format) : Nat := Nat.pow 2 (f.precision - 1)

/-- The code of infinity; greater magnitudes are no numbers. -/
def infinityCode (f : Format) : Nat := (Nat.pow 2 f.exponentBits - 1) * f.fractionCodes

/-- The code of the number-less magnitude. -/
def nanCode (f : Format) : Nat := f.infinityCode + f.fractionCodes / 2

/-- The code of the sign bit. -/
def signCode (f : Format) : Nat := Nat.pow 2 (f.width - 1)

/-- The quotient of two natural numbers, to the nearest and of two nearest to the even one. -/
def divideToEven (numerator denominator : Nat) : Nat :=
  let quotient := numerator / denominator
  let rest := numerator % denominator
  if 2 * rest < denominator ∨ (2 * rest = denominator ∧ quotient % 2 = 0) then quotient
  else quotient + 1

/-- The fraction `numerator / denominator * 2 ^ exponent`. -/
def scaled (numerator denominator : Nat) (exponent : Int) : Nat × Nat :=
  if 0 ≤ exponent then (numerator * Nat.pow 2 exponent.toNat, denominator)
  else (numerator, denominator * Nat.pow 2 (-exponent).toNat)

/-- The unit in the last place of the binade that holds a positive fraction, as a power of two.
A first guess from the bit lengths is at most one too great. -/
def unitOf (f : Format) (numerator denominator : Nat) : Int :=
  let top : Int := numerator.log2 - denominator.log2
  let guess := max f.unitExponent (top - (f.precision - 1 : Nat))
  let (n, d) := scaled numerator denominator (-guess)
  if f.unitExponent < guess ∧ n / d < f.fractionCodes then guess - 1 else guess

/-- The code of the magnitude nearest to a fraction, infinity when it is too great. Binades
follow one another without a gap, so a significand that rounds up to the next binade carries
into the exponent field. -/
def roundMagnitude (f : Format) (numerator denominator : Nat) : Nat :=
  if numerator = 0 then 0
  else
    let unit := f.unitOf numerator denominator
    let (n, d) := scaled numerator denominator (-unit)
    min f.infinityCode ((unit - f.unitExponent).toNat * f.fractionCodes + divideToEven n d)

end Format

/-- A floating-point number, as its code. -/
structure Binary (f : Format) where
  code : Nat
  code_lt : code < Nat.pow 2 f.width
deriving DecidableEq

abbrev Single := Binary .single

abbrev Double := Binary .double

/-- What a code stands for: `significand * 2 ^ exponent`, an infinity or no number. -/
inductive Unpacked where
  | nan (negative : Bool)
  | infinite (negative : Bool)
  | finite (negative : Bool) (significand : Nat) (exponent : Int)
deriving DecidableEq, Repr

namespace Binary

variable {f g : Format}

def ofCode (code : Nat) : Binary f := ⟨code % Nat.pow 2 f.width, Nat.mod_lt _ (Nat.two_pow_pos _)⟩

/-- The number with the given sign and the magnitude of the given code. -/
def signed (negative : Bool) (magnitude : Nat) : Binary f :=
  ofCode ((if negative then f.signCode else 0) + magnitude)

def zero (negative : Bool) : Binary f := signed negative 0

def infinity (negative : Bool) : Binary f := signed negative f.infinityCode

/-- What is no number, written as such. -/
def nan : Binary f := signed false f.nanCode

/-- The result of an operation that has none. -/
def invalid : Binary f := signed true f.nanCode

/-- The fraction `numerator / denominator`, rounded. -/
def ofRatio (negative : Bool) (numerator denominator : Nat) : Binary f :=
  signed negative (f.roundMagnitude numerator denominator)

/-- The number `significand * 2 ^ exponent`, rounded. -/
def ofScaled (negative : Bool) (significand : Nat) (exponent : Int) : Binary f :=
  let (numerator, denominator) := Format.scaled significand 1 exponent
  ofRatio negative numerator denominator

def isNegative (x : Binary f) : Bool := f.signCode ≤ x.code

/-- The code without its sign. -/
def magnitude (x : Binary f) : Nat := x.code % f.signCode

def isNaN (x : Binary f) : Bool := f.infinityCode < x.magnitude

def isFinite (x : Binary f) : Bool := x.magnitude < f.infinityCode

def unpack (x : Binary f) : Unpacked :=
  if x.isNaN then .nan x.isNegative
  else if x.isFinite then
    let field := x.magnitude / f.fractionCodes
    let fraction := x.magnitude % f.fractionCodes
    if field = 0 then .finite x.isNegative fraction f.unitExponent
    else .finite x.isNegative (f.fractionCodes + fraction) (f.unitExponent + (field - 1 : Nat))
  else .infinite x.isNegative

/-! ## Comparison -/

/-- The place of a number among all numbers; the two zeros share one. -/
def key (x : Binary f) : Int := if x.isNegative then -x.magnitude else x.magnitude

def lt (x y : Binary f) : Bool := !x.isNaN && !y.isNaN && x.key < y.key

def le (x y : Binary f) : Bool := !x.isNaN && !y.isNaN && x.key ≤ y.key

def equal (x y : Binary f) : Bool := !x.isNaN && !y.isNaN && x.key == y.key

/-- The place of a code in the total order: negative codes from the greatest magnitude down,
then the others from the least magnitude up. -/
def rank (x : Binary f) : Int := if x.isNegative then -1 - x.magnitude else x.magnitude

/-! ## Arithmetic -/

def neg (x : Binary f) : Binary f := signed (!x.isNegative) x.magnitude

def abs (x : Binary f) : Binary f := signed false x.magnitude

/-- The integer with a sign and a magnitude. -/
def integer (negative : Bool) (magnitude : Nat) : Int :=
  if negative then -magnitude else magnitude

def add (x y : Binary f) : Binary f :=
  match x.unpack, y.unpack with
  | .nan _, _ => x
  | _, .nan _ => y
  | .infinite s, .infinite t => if s = t then x else invalid
  | .infinite _, _ => x
  | _, .infinite _ => y
  | .finite s m e, .finite t n d =>
    let unit := min e d
    let total := integer s (m * Nat.pow 2 (e - unit).toNat) +
      integer t (n * Nat.pow 2 (d - unit).toNat)
    if total = 0 then zero (s && t) else ofScaled (total < 0) total.natAbs unit

def sub (x y : Binary f) : Binary f :=
  if x.isNaN then x else if y.isNaN then y else add x y.neg

def mul (x y : Binary f) : Binary f :=
  match x.unpack, y.unpack with
  | .nan _, _ => x
  | _, .nan _ => y
  | .infinite s, .infinite t => infinity (s != t)
  | .infinite s, .finite t n _ => if n = 0 then invalid else infinity (s != t)
  | .finite s m _, .infinite t => if m = 0 then invalid else infinity (s != t)
  | .finite s m e, .finite t n d => ofScaled (s != t) (m * n) (e + d)

def div (x y : Binary f) : Binary f :=
  match x.unpack, y.unpack with
  | .nan _, _ => x
  | _, .nan _ => y
  | .infinite _, .infinite _ => invalid
  | .infinite s, .finite t _ _ => infinity (s != t)
  | .finite s _ _, .infinite t => zero (s != t)
  | .finite s m e, .finite t n d =>
    if n = 0 then if m = 0 then invalid else infinity (s != t)
    else
      let (numerator, denominator) := Format.scaled m n (e - d)
      ofRatio (s != t) numerator denominator

/-- The remainder of truncated division, which is exact. -/
def remainder (x y : Binary f) : Binary f :=
  match x.unpack, y.unpack with
  | .nan _, _ => x
  | _, .nan _ => y
  | .infinite _, _ => invalid
  | .finite .., .infinite _ => x
  | .finite s m e, .finite _ n d =>
    if n = 0 then invalid
    else
      let unit := min e d
      ofScaled s ((m * Nat.pow 2 (e - unit).toNat) % (n * Nat.pow 2 (d - unit).toNat)) unit

/-- The root of a natural number below `4 ^ digits`, one binary digit at a time. -/
def rootOf : (digits : Nat) → Nat → Nat
  | 0, _ => 0
  | digits + 1, n =>
    let root := 2 * rootOf digits (n / 4)
    if (root + 1) * (root + 1) ≤ n then root + 1 else root

/-- The root is computed with more bits than the format has; a last bit that is set when the
root is inexact keeps it off every tie. -/
def sqrt (x : Binary f) : Binary f :=
  match x.unpack with
  | .nan _ => x
  | .infinite s => if s then invalid else x
  | .finite s m e =>
    if m = 0 then x
    else if s then invalid
    else
      let shift := 2 * f.precision + 4 + (e % 2).toNat
      let radicand := m * Nat.pow 2 shift
      let root := rootOf (radicand.log2 / 2 + 1) radicand
      let sticky := if root * root = radicand then 0 else 1
      ofScaled false (2 * root + sticky) ((e - shift) / 2 - 1)

/-- Round to a whole number; `away` says for a sign whether a fraction moves away from zero. -/
def toWhole (away : Bool → Bool) (x : Binary f) : Binary f :=
  match x.unpack with
  | .finite s m e =>
    if 0 ≤ e then x
    else
      let unit := Nat.pow 2 (-e).toNat
      let whole := m / unit
      ofRatio s (if away s && m % unit != 0 then whole + 1 else whole) 1
  | _ => x

def floor (x : Binary f) : Binary f := toWhole id x

def ceil (x : Binary f) : Binary f := toWhole not x

def toNat (x : Binary f) : Nat :=
  match x.unpack with
  | .finite false m e =>
    let (numerator, denominator) := Format.scaled m 1 e
    numerator / denominator
  | _ => 0

/-! ## Conversion -/

def ofNat (n : Nat) : Binary f := ofRatio false n 1

/-- Decimal digits of a natural number. -/
def decimalLength (n : Nat) : Nat := (Nat.toDigits 10 n).length

/-- Round a decimal literal. A literal of more than 400 places is beyond both formats, and one
that starts after 400 zeros is less than half of their least numbers. -/
def ofDecimal (d : Decimal) : Binary f :=
  let places := decimalLength d.digits + d.exponent
  if d.digits = 0 ∨ places < -400 then zero d.negative
  else if 400 < places then infinity d.negative
  else if 0 ≤ d.exponent then ofRatio d.negative (d.digits * Nat.pow 10 d.exponent.toNat) 1
  else ofRatio d.negative d.digits (Nat.pow 10 (-d.exponent).toNat)

/-- Round a number of one format to another. -/
def convert (x : Binary f) : Binary g :=
  match x.unpack with
  | .nan s => signed s g.nanCode
  | .infinite s => infinity s
  | .finite s m e => ofScaled s m e

end Binary

end MapStyle
