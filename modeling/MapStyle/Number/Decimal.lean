/-!
# Decimal literals

A decimal literal is a sign, a natural number of digits and a power of ten. It is
kept exact: rounding it to a number format is the format's business. The scanners
for digit runs and exponents are shared by every text in which numbers are
written.
-/

namespace MapStyle

/-- The number `digits * 10 ^ exponent`, negated when `negative` holds. A negative
zero is distinct from zero. -/
structure Decimal where
  negative : Bool
  digits : Nat
  exponent : Int
deriving DecidableEq, Repr

namespace Decimal

/-- The value of a decimal digit. -/
def digitValue (c : Char) : Nat := c.toNat - '0'.toNat

/-- The natural number written by a run of decimal digits. -/
def naturalOf (digits : List Char) : Nat :=
  digits.foldl (fun number c => 10 * number + digitValue c) 0

/-- Split a text after its leading decimal digits. -/
def spanDigits (text : List Char) : List Char × List Char :=
  text.span Char.isDigit

/-- An integer as a decimal literal. -/
def ofInt (n : Int) : Decimal := ⟨n < 0, n.natAbs, 0⟩

/-- The literal written by the digits before the point, those after it and a power of ten. -/
def ofParts (negative : Bool) (whole fraction : List Char) (exponent : Int) : Decimal :=
  ⟨negative, naturalOf (whole ++ fraction), exponent - fraction.length⟩

/-- Drop a leading sign and tell whether it was a minus. -/
def scanSign : List Char → Bool × List Char
  | '-' :: rest => (true, rest)
  | '+' :: rest => (false, rest)
  | text => (false, text)

/-- An exponent part: `e` or `E`, an optional sign and digits. A text that does not start
with `e` has the exponent zero, and an `e` without digits is refused. -/
def scanExponent (text : List Char) : Option (Int × List Char) :=
  match text with
  | [] => some (0, [])
  | c :: rest =>
    if c = 'e' ∨ c = 'E' then
      let (negative, unsigned) := scanSign rest
      let (digits, rest) := spanDigits unsigned
      if digits.isEmpty then none
      else
        let magnitude : Int := naturalOf digits
        some (if negative then -magnitude else magnitude, rest)
    else some (0, text)

/-- What `scan` found at the start of a text. -/
inductive Scan where
  /-- A number and the text after it. -/
  | number (value : Decimal) (rest : List Char)
  /-- The text starts with no number. -/
  | absent
  /-- The text starts with a number whose exponent has no digits. -/
  | broken
deriving Repr

/-- Read `[+-]? (digits [. digits?] | . digits) ([eE] [+-]? digits)?` from the start of a text. -/
def scan (text : List Char) : Scan :=
  let (negative, unsigned) := scanSign text
  let (whole, rest) := spanDigits unsigned
  let finish (whole fraction : List Char) (rest : List Char) : Scan :=
    match scanExponent rest with
    | some (exponent, rest) => .number (ofParts negative whole fraction exponent) rest
    | none => .broken
  match whole, rest with
  | [], '.' :: rest =>
    match spanDigits rest with
    | ([], _) => .absent
    | (fraction, rest) => finish [] fraction rest
  | [], _ => .absent
  | whole, '.' :: rest =>
    let (fraction, rest) := spanDigits rest
    finish whole fraction rest
  | whole, rest => finish whole [] rest

end Decimal

end MapStyle
