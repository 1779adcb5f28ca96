import MapStyle.Expr.Basic
import MapStyle.Packing.Identifier
import MapStyle.Shader.Wgsl
import MapStyle.Style.Property

/-!
# Vertex attributes

A value that varies between features travels to the shader in one or two narrow
words. An attribute fixes how values are packed into its words, how the words are
decoded, and the shader source that decodes them.
-/

namespace MapStyle

/-- How values are packed into words. -/
inductive Quantization (W : Type) where
  /-- A number as it is. -/
  | raw
  /-- Two words of two channels each. -/
  | packedColor
  /-- A number of a range, as its place between zero and one. -/
  | normalized (minimum maximum : W)
  /-- One or zero. -/
  | flag
  /-- The number that stands for a string. -/
  | stringId

namespace Quantization

variable {W : Type}

/-- How values of a type are packed, given the declared range of numbers. -/
def of (type : ValueType) (bounds : Option (W × W)) : Quantization W :=
  match type with
  | .color => packedColor
  | .boolean => flag
  | .string => stringId
  | .number | .numberArray =>
    match bounds with
    | some (minimum, maximum) => normalized minimum maximum
    | none => raw

/-- The number of words. -/
def components : Quantization W → Nat
  | packedColor => 2
  | _ => 1

end Quantization

/-- A number that was packed as another one: clamped into its range or into the narrow type. -/
structure PackIssue (W : Type) where
  value : W
  minimum : W
  maximum : W

/-- Where the value of an attribute comes from. -/
inductive AttributeSource (W N : Type) where
  /-- A feature property that shader code reads. -/
  | property (name : String)
  /-- A style property that is evaluated ahead of the shader. -/
  | evaluated (property : StyleProperty) (expr : Expr W N)

/-- A value the vertices of a style have to carry. -/
structure AttributeRequest (W N : Type) where
  /-- The name the attribute asks for. -/
  name : String
  type : ValueType
  source : AttributeSource W N
  bounds : Option (W × W)

namespace AttributeRequest

variable {W N : Type}

/-- A feature property. -/
def ofProperty (name : String) (type : ValueType) (bounds : Option (W × W)) :
    AttributeRequest W N :=
  ⟨"prop_" ++ name, type, .property name, bounds⟩

/-- A style property. -/
def ofEvaluated (property : StyleProperty) (expr : Expr W N) : AttributeRequest W N :=
  ⟨"style_" ++ property.identifier, property.type, .evaluated property expr, none⟩

end AttributeRequest

/-- An attribute with its place in the vertex. -/
structure Attribute (W N : Type) where
  /-- The field of the vertex input. -/
  name : String
  /-- The name of the unpacked value in the vertex stage. -/
  unpackedName : String
  type : ValueType
  source : AttributeSource W N
  quantization : Quantization W
  /-- The number of attribute words before it. -/
  offset : Nat

namespace Attribute

variable {W N : Type}

def components (a : Attribute W N) : Nat := a.quantization.components

def shaderType (a : Attribute W N) : ShaderType := ShaderType.of a.type

variable [Scalar W] [Scalar N]

/-- The words of a value, and whether another number was packed in its place. A value of
another type is packed as the zero of the type. -/
def pack [Precision W N] (a : Attribute W N) (value : Value W N) :
    List N × Option (PackIssue W) :=
  let issueOf (raw packed minimum maximum : W) : Option (PackIssue W) :=
    if packed != raw then some ⟨raw, minimum, maximum⟩ else none
  match a.quantization with
  | .packedColor =>
    let (first, second) := (value.asColor?.getD Color.transparent).pack
    ([first, second], none)
  | .flag => ([ShaderValue.ofBool (value.asBoolean?.getD false)], none)
  | .stringId => ([Scalar.ofNat (stringId (value.asString?.getD ""))], none)
  | .raw =>
    let raw := value.asNumber?.getD Scalar.zero
    let limit : W := Scalar.narrowLimit
    let packed := if Scalar.isNaN raw then Scalar.zero else Scalar.clamp raw (-limit) limit
    ([narrow packed], issueOf raw packed (-limit) limit)
  | .normalized minimum maximum =>
    let raw := value.asNumber?.getD minimum
    let packed := Scalar.clamp raw minimum maximum
    ([narrow ((packed - minimum) / (maximum - minimum))], issueOf raw packed minimum maximum)

/-- The value of words. A missing word counts as zero. -/
def decode [Precision W N] (a : Attribute W N) (words : List N) : ShaderValue N :=
  let first := words.getD 0 Scalar.zero
  match a.quantization with
  | .packedColor => .vec4 (Vec4.ofColor (Color.unpack first (words.getD 1 Scalar.zero)))
  | .flag => .bool (Scalar.lt Scalar.half first)
  | .raw | .stringId => .float first
  | .normalized minimum maximum => .float (Builtin.blend first (narrow minimum) (narrow maximum))

/-- The shader type of the field of the vertex input. -/
def inputType (a : Attribute W N) : String :=
  match a.quantization with
  | .packedColor => "vec2<f32>"
  | _ => "f32"

/-- The shader source that decodes the field. -/
def unpackSource [Precision W N] (a : Attribute W N) : String :=
  let field := "vertex_in." ++ a.name
  let float (n : W) : String := String.ofList (wgslFloat (narrow n : N))
  match a.quantization with
  | .packedColor => "unpack_color(" ++ field ++ ")"
  | .flag => "(" ++ field ++ " > 0.5)"
  | .raw | .stringId => field
  | .normalized minimum maximum =>
    "mix(" ++ float minimum ++ ", " ++ float maximum ++ ", " ++ field ++ ")"

end Attribute

end MapStyle
