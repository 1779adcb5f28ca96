import MapStyle.Proofs.Number.Exact
import MapStyle.Style.Lowering
import MapStyle.Uniform.Frame

/-!
# Images of values

The interpreter's values and the shader's are different: a string is there its number, and a
list of numbers is nothing at all. `Value.image?` is the correspondence that lowering has to
keep. Constants and vectors of the uniform block keep it by construction.
-/

namespace MapStyle

namespace Value

/-- What a value is in the shader. -/
def image? {W N : Type} [Scalar N] [Precision W N] : Value W N → Option (ShaderValue N)
  | number n => some (.float (narrow n))
  | boolean b => some (.bool b)
  | color c => some (.vec4 (Vec4.ofColor c))
  | string s => some (.float (Scalar.ofNat (stringId s)))
  | numberArray _ => none

end Value

namespace ShaderExpr

variable {W N : Type} [Scalar N] [Precision W N]

/-- Constants evaluate to the image of their value. -/
theorem image?_of_ofValue? {value : Value W N} {e : ShaderExpr N}
    (constant : ofValue? value = some e)
    (scope : ShaderScope N) : value.image? = some (e.eval scope) := by
  cases value with
  | numberArray items => cases constant
  | _ =>
    cases constant
    rfl

end ShaderExpr

variable {K : Type} [Field K] [LinearOrder K] [IsStrictOrderedRing K] [FloorRing K] [Elementary K]

namespace ShaderValue

/-- A truth value survives as a number. -/
theorem half_lt_ofBool (b : Bool) : Scalar.lt (Scalar.half : K) (ofBool b) = b := by
  cases b with
  | false =>
    rw [Bool.eq_false_iff, Ne, Exact.lt_iff, Exact.half_eq]
    show ¬(1 / 2 : K) < (Scalar.zero : K)
    rw [Exact.zero_eq]
    norm_num
  | true =>
    rw [Exact.lt_iff, Exact.half_eq]
    show (1 / 2 : K) < (Scalar.one : K)
    rw [Exact.one_eq]
    norm_num

/-- A value survives a vector of the uniform block. -/
theorem image?_readAs {value : Value K K} (shown : value.type ≠ .numberArray) :
    value.image? = some (ShaderExpr.readAs (ShaderType.of value.type) (.vec4 value.toVec4)) := by
  cases value with
  | numberArray items => exact absurd rfl shown
  | boolean b => exact congrArg some (congrArg bool (half_lt_ofBool b).symm)
  | _ => rfl

end ShaderValue

end MapStyle
