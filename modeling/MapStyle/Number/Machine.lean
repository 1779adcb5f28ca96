import MapStyle.Number.Shortest

/-!
# The machine's numbers

Doubles are the wide number type and singles the narrow one. The elementary
functions are those of the platform; whatever they make of an operand that is no
number, the operand is returned.
-/

namespace MapStyle

namespace Binary

/-- A function on doubles. -/
def viaDouble (function : Float → Float) (x : Double) : Double :=
  let result := function (Float.ofBits (UInt64.ofNat x.code))
  if result.isNaN then if x.isNaN then x else invalid else ofCode result.toBits.toNat

/-- A function of two doubles. -/
def viaDoubles (function : Float → Float → Float) (x y : Double) : Double :=
  let result := function (Float.ofBits (UInt64.ofNat x.code)) (Float.ofBits (UInt64.ofNat y.code))
  if result.isNaN then if x.isNaN then x else if y.isNaN then y else invalid
  else ofCode result.toBits.toNat

/-- A function on singles. -/
def viaSingle (function : Float32 → Float32) (x : Single) : Single :=
  let result := function (Float32.ofBits (UInt32.ofNat x.code))
  if result.isNaN then if x.isNaN then x else invalid else ofCode result.toBits.toNat

/-- A function of two singles. -/
def viaSingles (function : Float32 → Float32 → Float32) (x y : Single) : Single :=
  let result := function (Float32.ofBits (UInt32.ofNat x.code))
    (Float32.ofBits (UInt32.ofNat y.code))
  if result.isNaN then if x.isNaN then x else if y.isNaN then y else invalid
  else ofCode result.toBits.toNat

instance : Scalar Double where
  add := add
  sub := sub
  mul := mul
  div := div
  neg := neg
  beq := equal
  ofNat := ofNat
  ofDecimal := ofDecimal
  remainder := remainder
  power := viaDoubles Float.pow
  abs := abs
  floor := floor
  ceil := ceil
  sqrt := sqrt
  sin := viaDouble Float.sin
  cos := viaDouble Float.cos
  atan := viaDouble Float.atan
  atan2 := viaDoubles Float.atan2
  lt := lt
  le := le
  isNaN := isNaN
  isFinite := isFinite
  toNat := toNat
  infinity := infinity false
  undefined := nan
  text := text
  literal := literal
  code := code
  precedes x y := x.rank < y.rank

instance : Scalar Single where
  add := add
  sub := sub
  mul := mul
  div := div
  neg := neg
  beq := equal
  ofNat := ofNat
  ofDecimal := ofDecimal
  remainder := remainder
  power := viaSingles Float32.pow
  abs := abs
  floor := floor
  ceil := ceil
  sqrt := sqrt
  sin := viaSingle Float32.sin
  cos := viaSingle Float32.cos
  atan := viaSingle Float32.atan
  atan2 := viaSingles Float32.atan2
  lt := lt
  le := le
  isNaN := isNaN
  isFinite := isFinite
  toNat := toNat
  infinity := infinity false
  undefined := nan
  text := text
  literal := literal
  code := code
  precedes x y := x.rank < y.rank

instance : Precision Double Single where
  narrow := convert

end Binary

end MapStyle
