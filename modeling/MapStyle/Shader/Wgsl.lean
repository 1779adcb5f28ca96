import MapStyle.Shader.Expr

/-!
# Shader source of expressions

How shader expressions are written. Every operator is parenthesized with its
operands, and so is a negative literal, so that the source needs no precedence.
-/

namespace MapStyle

/-- A number as a literal of the shader language. What is no number and both zeros are written
as zero, and numbers beyond the narrow type as its greatest. -/
def wgslFloat {N : Type} [Scalar N] (v : N) : List Char :=
  if Scalar.isNaN v || v == Scalar.zero then (Scalar.literal (Scalar.zero : N)).toList
  else
    let v := Scalar.clamp v (-Scalar.narrowLimit) Scalar.narrowLimit
    let text := (Scalar.literal v).toList
    if Scalar.lt v Scalar.zero then '(' :: text ++ [')'] else text

namespace ShaderExpr

variable {N : Type} [Scalar N]

/-- Texts one after another, with commas between them, in parentheses. -/
def parenthesized (texts : List (List Char)) : List Char :=
  '(' :: ", ".toList.intercalate texts ++ [')']

/-- A uniform: numbers are the first component of a vector, and truth values are numbers above
one half. -/
def writeUniform (name : String) : ShaderType → List Char
  | .float => ("uniforms." ++ name ++ ".x").toList
  | .bool => ("(uniforms." ++ name ++ ".x > 0.5)").toList
  | .vec4 => ("uniforms." ++ name).toList

/-- What goes before a comparison of operands of a type: vectors compare component by component,
and the comparison is reduced to one truth value. -/
def reduction : BinaryOp → ShaderType → String
  | .equal, .vec4 => "all"
  | .notEqual, .vec4 => "any"
  | _, _ => ""

mutual

/-- The source of an expression, as characters. -/
def write : ShaderExpr N → List Char
  | float v => wgslFloat v
  | bool b => (if b then "true" else "false").toList
  | vec4 v => "vec4<f32>".toList ++ parenthesized (v.components.map wgslFloat)
  | unpacked name _ => name.toList
  | uniform name type => writeUniform name type
  | not operand => '!' :: '(' :: write operand ++ [')']
  | binary op left right =>
    (reduction op left.type).toList ++ '(' :: write left ++ ' ' :: op.symbol.toList ++
      ' ' :: write right ++ [')']
  | call function args => function.name.toList ++ parenthesized (writeAll args)
  | select ifFalse ifTrue condition =>
    "select".toList ++ parenthesized [write ifFalse, write ifTrue, write condition]
  | makeVec4 parts => "vec4<f32>".toList ++ parenthesized (writeAll parts)

/-- The sources of some expressions. -/
def writeAll : List (ShaderExpr N) → List (List Char)
  | [] => []
  | e :: rest => write e :: writeAll rest

end

/-- The source of an expression. -/
def wgsl (e : ShaderExpr N) : String := String.ofList (write e)

end ShaderExpr

end MapStyle
