import MapStyle.Dictionary
import MapStyle.Shader.Expr

/-!
# Frames

What the renderer supplies for one draw, and how a value fills a vector of the
uniform block.
-/

namespace MapStyle

/-- The inputs of one draw. -/
structure Frame (W N : Type) where
  /-- The world-to-clip matrix, column by column. -/
  projection : List N
  zoom : W
  /-- Device pixels per style pixel. -/
  resolution : W
  /-- Seconds. -/
  time : W
  /-- Values in place of the defaults of style variables. -/
  bindings : Dictionary (Value W N)

namespace Frame

variable {W N : Type} [Scalar W] [Scalar N]

/-- The identity matrix. -/
def identity : List N :=
  (List.range 16).map fun i => if i % 5 = 0 then Scalar.one else Scalar.zero

end Frame

/-- A value spread over one vector. -/
def Value.toVec4 {W N : Type} [Scalar W] [Scalar N] [Precision W N] : Value W N → Vec4 N
  | .number n => Vec4.ofScalar (narrow n)
  | .boolean b => Vec4.ofScalar (ShaderValue.ofBool b)
  | .color c => Vec4.ofColor c
  | .string s => Vec4.ofScalar (Scalar.ofNat (stringId s))
  | .numberArray items => Vec4.ofList (items.map narrow)

end MapStyle
