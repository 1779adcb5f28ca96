import MapStyle.Number.Decimal

/-!
# Numbers as the style language uses them

Everything the style language computes is written over two number types: a wide
one for the interpreter and a narrow one for vertex words, colors and shaders. The
classes here list exactly the operations used, so that a definition can be run on
binary floating point and reasoned about over an exact field.
-/

namespace MapStyle

/-- The operations expressions, colors and geometry perform on one number type. -/
class Scalar (α : Type) extends Add α, Sub α, Mul α, Div α, Neg α, BEq α where
  ofNat : Nat → α
  ofDecimal : Decimal → α
  /-- The remainder of truncated division; it has the sign of the dividend. -/
  remainder : α → α → α
  power : α → α → α
  abs : α → α
  floor : α → α
  ceil : α → α
  sqrt : α → α
  sin : α → α
  cos : α → α
  atan : α → α
  /-- The angle of the point with the given ordinate and abscissa. -/
  atan2 : α → α → α
  lt : α → α → Bool
  le : α → α → Bool
  isNaN : α → Bool
  isFinite : α → Bool
  /-- The whole part of a positive number; zero for anything else. -/
  toNat : α → Nat
  infinity : α
  /-- What is no number. -/
  undefined : α
  /-- The shortest decimal text of a number, without a point where it is whole. -/
  text : α → String
  /-- The shortest decimal text that shows a number to be a fraction even where it is whole. -/
  literal : α → String
  /-- The bit pattern of a number. -/
  code : α → Nat
  /-- A strict total order of all numbers, told apart by their bit patterns. -/
  precedes : α → α → Bool

namespace Scalar

variable {α : Type} [Scalar α]

def zero : α := ofNat 0

def one : α := ofNat 1

def half : α := ofNat 1 / ofNat 2

/-- The greatest number of the narrow machine type. -/
def narrowLimit : α := ofNat ((Nat.pow 2 24 - 1) * Nat.pow 2 104)

/-- The greater of two numbers, the second of equal ones, such as zeros of either sign; of two
operands one of which is no number, the other. -/
def maximum (a b : α) : α := if isNaN b || lt b a then a else b

/-- The lesser of two numbers, the second of equal ones, such as zeros of either sign; of two
operands one of which is no number, the other. -/
def minimum (a b : α) : α := if isNaN b || lt a b then a else b

/-- Move a number into an interval; what is no number stays as it is. -/
def clamp (x low high : α) : α := if lt x low then low else if lt high x then high else x

/-- Round a number that is not negative to the nearest natural number, a half upwards. -/
def nearest (x : α) : Nat :=
  let whole := floor x
  toNat (if lt (x - whole) half then whole else whole + one)

end Scalar

/-- A wide number type and the narrow one its numbers are rounded to. -/
class Precision (W : Type) (N : outParam Type) where
  narrow : W → N

export Precision (narrow)

end MapStyle
