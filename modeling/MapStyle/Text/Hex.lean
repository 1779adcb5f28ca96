/-!
# Hexadecimal notation
-/

namespace MapStyle.Text

/-- Whether a character is a hexadecimal digit of either case. -/
def isHexDigit (c : Char) : Bool :=
  c.isDigit || ('a' ≤ c && c ≤ 'f') || ('A' ≤ c && c ≤ 'F')

/-- The value of a hexadecimal digit of either case. -/
def hexValue (c : Char) : Nat :=
  if c.isDigit then c.toNat - '0'.toNat
  else if 'a' ≤ c ∧ c ≤ 'f' then c.toNat - 'a'.toNat + 10
  else c.toNat - 'A'.toNat + 10

/-- The natural number written by hexadecimal digits. -/
def hexNatural (digits : List Char) : Nat :=
  digits.foldl (fun number c => 16 * number + hexValue c) 0

/-- Lower-case hexadecimal digits, filled with zeros up to `width`. -/
def hexDigits (width : Nat) (n : Nat) : List Char :=
  let digits := Nat.toDigits 16 n
  List.replicate (width - digits.length) '0' ++ digits

end MapStyle.Text
