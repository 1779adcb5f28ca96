import MapStyle.Value

/-!
# Shader expressions

The small typed language that lowering produces. A tree prints as shader source and
evaluates here, so that what a shader computes can be compared with the interpreter.
Scalars of the uniform block live in the first component of a vector.
-/

namespace MapStyle

/-- The types of shader expressions. -/
inductive ShaderType where
  | float
  | bool
  | vec4
deriving DecidableEq, Repr

namespace ShaderType

def all : List ShaderType := [float, bool, vec4]

/-- The shader type of a value type; a string travels as its number. -/
def of : ValueType → ShaderType
  | .boolean => bool
  | .color => vec4
  | .number | .string | .numberArray => float

/-- The name of a type in shader sources. -/
def name : ShaderType → String
  | float => "f32"
  | bool => "bool"
  | vec4 => "vec4<f32>"

end ShaderType

/-- A vector of four numbers. -/
structure Vec4 (N : Type) where
  x : N
  y : N
  z : N
  w : N
deriving DecidableEq, Repr

namespace Vec4

variable {N : Type} [Scalar N]

instance : BEq (Vec4 N) := ⟨fun a b => a.x == b.x && a.y == b.y && a.z == b.z && a.w == b.w⟩

def components (v : Vec4 N) : List N := [v.x, v.y, v.z, v.w]

/-- The vector with the given first components, and zeros for the others. -/
def ofList (components : List N) : Vec4 N :=
  let component (i : Nat) : N := components.getD i Scalar.zero
  ⟨component 0, component 1, component 2, component 3⟩

/-- The vector with the given first component. -/
def ofScalar (n : N) : Vec4 N := ⟨n, Scalar.zero, Scalar.zero, Scalar.zero⟩

def zero : Vec4 N := ofScalar Scalar.zero

def ofColor (c : Color N) : Vec4 N := ⟨c.red, c.green, c.blue, c.alpha⟩

/-- Combine two vectors component by component. -/
def zipWith (f : N → N → N) (a b : Vec4 N) : Vec4 N :=
  ⟨f a.x b.x, f a.y b.y, f a.z b.z, f a.w b.w⟩

end Vec4

/-- A value of the shader language. -/
inductive ShaderValue (N : Type) where
  | float (value : N)
  | bool (value : Bool)
  | vec4 (value : Vec4 N)
deriving DecidableEq

namespace ShaderValue

variable {N : Type} [Scalar N]

def zeroOf : ShaderType → ShaderValue N
  | .float => float Scalar.zero
  | .bool => bool false
  | .vec4 => vec4 Vec4.zero

/-- A truth value as a number. -/
def ofBool (b : Bool) : N := if b then Scalar.one else Scalar.zero

def asFloat : ShaderValue N → N
  | float v => v
  | bool b => ofBool b
  | vec4 v => v.x

def asBool : ShaderValue N → Bool
  | bool b => b
  | float v => Scalar.lt Scalar.half v
  | vec4 v => Scalar.lt Scalar.half v.x

def asVec4 : ShaderValue N → Vec4 N
  | vec4 v => v
  | float v => Vec4.ofScalar v
  | bool b => Vec4.ofScalar (ofBool b)

end ShaderValue

/-- The binary operators of the shader language. -/
inductive BinaryOp where
  | add
  | subtract
  | multiply
  | divide
  | remainder
  | greater
  | greaterEqual
  | less
  | lessEqual
  | equal
  | notEqual
  | and
  | or
deriving DecidableEq, Repr

namespace BinaryOp

def all : List BinaryOp := [add, subtract, multiply, divide, remainder, greater, greaterEqual, less,
  lessEqual, equal, notEqual, and, or]

def symbol : BinaryOp → String
  | add => "+"
  | subtract => "-"
  | multiply => "*"
  | divide => "/"
  | remainder => "%"
  | greater => ">"
  | greaterEqual => ">="
  | less => "<"
  | lessEqual => "<="
  | equal => "=="
  | notEqual => "!="
  | and => "&&"
  | or => "||"

/-- Whether the result is a number and not a truth value. -/
def isArithmetic : BinaryOp → Bool
  | add | subtract | multiply | divide | remainder => true
  | _ => false

variable {N : Type} [Scalar N]

/-- The number an arithmetic operator computes. -/
def arithmetic : BinaryOp → N → N → N
  | add, a, b => a + b
  | subtract, a, b => a - b
  | multiply, a, b => a * b
  | divide, a, b => a / b
  | remainder, a, b => Scalar.remainder a b
  | _, _, _ => Scalar.zero

/-- The value of an operator on numbers. -/
def onFloats (op : BinaryOp) (a b : N) : ShaderValue N :=
  match op with
  | greater => .bool (Scalar.lt b a)
  | greaterEqual => .bool (Scalar.le b a)
  | less => .bool (Scalar.lt a b)
  | lessEqual => .bool (Scalar.le a b)
  | equal => .bool (a == b)
  | notEqual => .bool (a != b)
  | and | or => .bool false
  | _ => .float (op.arithmetic a b)

/-- The value of an operator on truth values. -/
def onBools (op : BinaryOp) (a b : Bool) : ShaderValue N :=
  .bool <| match op with
    | and => a && b
    | or => a || b
    | equal => a == b
    | _ => a != b

/-- The value of an operator on vectors: arithmetic works component by component, and equality
compares all components. -/
def onVectors (op : BinaryOp) (a b : Vec4 N) : ShaderValue N :=
  match op with
  | equal => .bool (a == b)
  | notEqual => .bool (!(a == b))
  | _ => .vec4 (Vec4.zipWith op.arithmetic a b)

/-- The value of an operator. Operands of different kinds are taken as numbers. -/
def apply (op : BinaryOp) : ShaderValue N → ShaderValue N → ShaderValue N
  | .vec4 a, .vec4 b => op.onVectors a b
  | .bool a, .bool b => op.onBools a b
  | a, b => op.onFloats a.asFloat b.asFloat

end BinaryOp

/-- The functions of the shader language that lowering uses. -/
inductive Builtin where
  | abs
  | floor
  | ceil
  | sqrt
  | sin
  | cos
  | atan
  | atan2
  | pow
  | clamp
  | mix
deriving DecidableEq, Repr

namespace Builtin

def all : List Builtin := [abs, floor, ceil, sqrt, sin, cos, atan, atan2, pow, clamp, mix]

def name : Builtin → String
  | abs => "abs"
  | floor => "floor"
  | ceil => "ceil"
  | sqrt => "sqrt"
  | sin => "sin"
  | cos => "cos"
  | atan => "atan"
  | atan2 => "atan2"
  | pow => "pow"
  | clamp => "clamp"
  | mix => "mix"

variable {N : Type} [Scalar N]

/-- Blend two numbers. -/
def blend (t a b : N) : N := a * (Scalar.one - t) + b * t

/-- The value of a function. A missing argument counts as zero. -/
def apply (function : Builtin) (args : List (ShaderValue N)) : ShaderValue N :=
  let arg (i : Nat) : N := (args[i]?.map ShaderValue.asFloat).getD Scalar.zero
  match function with
  | abs => .float (Scalar.abs (arg 0))
  | floor => .float (Scalar.floor (arg 0))
  | ceil => .float (Scalar.ceil (arg 0))
  | sqrt => .float (Scalar.sqrt (arg 0))
  | sin => .float (Scalar.sin (arg 0))
  | cos => .float (Scalar.cos (arg 0))
  | atan => .float (Scalar.atan (arg 0))
  | atan2 => .float (Scalar.atan2 (arg 0) (arg 1))
  | pow => .float (Scalar.power (arg 0) (arg 1))
  | clamp => .float (Scalar.minimum (Scalar.maximum (arg 0) (arg 1)) (arg 2))
  | mix =>
    match args with
    | .vec4 a :: .vec4 b :: _ => .vec4 (Vec4.zipWith (blend (arg 2)) a b)
    | _ => .float (blend (arg 2) (arg 0) (arg 1))

end Builtin

/-- An expression of the shader language. -/
inductive ShaderExpr (N : Type) where
  | float (value : N)
  | bool (value : Bool)
  | vec4 (value : Vec4 N)
  /-- A vertex attribute that was unpacked and named at the head of the vertex stage. -/
  | unpacked (name : String) (type : ShaderType)
  /-- A field of the uniform block. -/
  | uniform (name : String) (type : ShaderType)
  | not (operand : ShaderExpr N)
  | binary (op : BinaryOp) (left right : ShaderExpr N)
  | call (function : Builtin) (args : List (ShaderExpr N))
  | select (ifFalse ifTrue condition : ShaderExpr N)
  | makeVec4 (parts : List (ShaderExpr N))

/-- What the names in a shader expression are bound to. -/
structure ShaderScope (N : Type) where
  unpacked : String → Option (ShaderValue N)
  uniforms : String → Option (ShaderValue N)

namespace ShaderExpr

variable {N : Type} [Scalar N]

/-- The type of an expression. Arithmetic and blending have the type of their first operand. -/
def type : ShaderExpr N → ShaderType
  | float _ => .float
  | bool _ | not _ => .bool
  | vec4 _ | makeVec4 _ => .vec4
  | unpacked _ type | uniform _ type => type
  | binary op left _ => if op.isArithmetic then left.type else .bool
  | call .mix (first :: _) => first.type
  | call _ _ => .float
  | select _ ifTrue _ => ifTrue.type

/-- A uniform as a value of its declared type. -/
def readAs : ShaderType → ShaderValue N → ShaderValue N
  | .float, raw => .float raw.asFloat
  | .bool, raw => .bool raw.asBool
  | .vec4, raw => .vec4 raw.asVec4

mutual

/-- The value of an expression. A name that is not bound is the zero of its type. -/
def eval (scope : ShaderScope N) : ShaderExpr N → ShaderValue N
  | float v => .float v
  | bool b => .bool b
  | vec4 v => .vec4 v
  | unpacked name type => (scope.unpacked name).getD (ShaderValue.zeroOf type)
  | uniform name type => readAs type ((scope.uniforms name).getD (ShaderValue.zeroOf type))
  | not operand => .bool !(eval scope operand).asBool
  | binary op left right => op.apply (eval scope left) (eval scope right)
  | call function args => function.apply (evalAll scope args)
  | select ifFalse ifTrue condition =>
    if (eval scope condition).asBool then eval scope ifTrue else eval scope ifFalse
  | makeVec4 parts => .vec4 (Vec4.ofList ((evalAll scope parts).map ShaderValue.asFloat))

/-- The values of some expressions. -/
def evalAll (scope : ShaderScope N) : List (ShaderExpr N) → List (ShaderValue N)
  | [] => []
  | e :: rest => eval scope e :: evalAll scope rest

end

end ShaderExpr

end MapStyle
