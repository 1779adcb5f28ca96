import MapStyle.CompileError
import MapStyle.Expr.Dependencies
import MapStyle.Expr.Eval
import MapStyle.Packing.Plan
import MapStyle.Uniform.Layout

/-!
# Lowering to shader expressions

An expression becomes a shader expression over the attributes of a fixed packing
plan and over a layout of uniforms that grows as frame inputs are met. Subtrees that
read nothing are evaluated; decisions become chains of selections, the last branch
innermost; interpolations become selections from the first segment upwards.
-/

namespace MapStyle

/-- A constant as a shader expression; lists have none. -/
def ShaderExpr.ofValue? {W N : Type} [Scalar N] [Precision W N] : Value W N → Option (ShaderExpr N)
  | .number n => some (.float (narrow n))
  | .boolean b => some (.bool b)
  | .color c => some (.vec4 (Vec4.ofColor c))
  | .string s => some (.float (Scalar.ofNat (stringId s)))
  | .numberArray _ => none

/-- What an expression is lowered against. -/
structure Target (W N : Type) where
  /-- The name of the property whose expression it is. -/
  property : String
  plan : Plan W N
  bindings : Dictionary (Value W N)
  externals : Registry W N

/-- Lowering adds uniforms to a layout, and keeps what it added when it fails. -/
abbrev Lowering (α : Type) := ExceptT CompileError (StateM UniformLayout) α

namespace Target

variable {W N : Type} [Scalar W] [Scalar N] [Precision W N]

/-- The context in which subtrees that read nothing are evaluated. -/
def constantContext (t : Target W N) : Context W N :=
  { properties := noProperties
    bindings := t.bindings
    externals := t.externals
    zoom := Scalar.zero
    resolution := Scalar.one
    time := Scalar.zero }

/-- Lower a constant. -/
def constant (t : Target W N) (value : Value W N) : Lowering (ShaderExpr N) :=
  match ShaderExpr.ofValue? value with
  | some e => pure e
  | none => throw (.expression t.property
      (.invalidLiteral "number arrays have no shader representation"))

/-- The value of a subtree that is no literal and reads nothing, when it has one. -/
def folded? (t : Target W N) (e : Expr W N) : Option (Value W N) :=
  if e.literal?.isNone && !e.isFeatureDependent && !e.isFrameDependent then
    (e.evaluate t.constantContext).toOption
  else none

/-- Lower a feature property, which must have an attribute. -/
def featureProperty (t : Target W N) (name : String) (type : ValueType) : Lowering (ShaderExpr N) :=
  match t.plan.unpackedProperty? name with
  | some unpacked => pure (.unpacked unpacked (ShaderType.of type))
  | none => throw (.expression t.property (.unresolvedProperty name))

/-- Lower a frame input, declaring its uniform. -/
def input (source : FrameInput) (type : ValueType) : Lowering (ShaderExpr N) := do
  let layout ← get
  let (layout, name) := layout.frameInput source (ShaderType.of type)
  set layout
  return .uniform name (ShaderType.of type)

end Target

namespace ShaderExpr

variable {W N : Type} [Scalar W] [Scalar N] [Precision W N]

/-- Combine operands from the left with a binary operator. -/
def chain (op : BinaryOp) (empty : ShaderExpr N) : List (ShaderExpr N) → ShaderExpr N
  | [] => empty
  | first :: rest => rest.foldl (.binary op) first

/-- The shader expression of an operator on lowered operands. A missing operand is zero. -/
def ofOperator (op : Operator) (operands : List (ShaderExpr N)) : ShaderExpr N :=
  let zero : ShaderExpr N := .float Scalar.zero
  let one : ShaderExpr N := .float Scalar.one
  let operand (i : Nat) : ShaderExpr N := operands.getD i zero
  let channel (i : Nat) : ShaderExpr N :=
    .binary .divide (operand i) (.float (Scalar.ofNat 255))
  let binary (op : BinaryOp) : ShaderExpr N := .binary op (operand 0) (operand 1)
  let call (function : Builtin) (count : Nat) : ShaderExpr N :=
    .call function ((List.range count).map operand)
  match op with
  | .add => chain .add zero operands
  | .multiply => chain .multiply one operands
  | .all => chain .and (.bool true) operands
  | .any => chain .or (.bool false) operands
  | .subtract => binary .subtract
  | .divide => binary .divide
  | .remainder => binary .remainder
  | .greater => binary .greater
  | .greaterEqual => binary .greaterEqual
  | .less => binary .less
  | .lessEqual => binary .lessEqual
  | .equal => binary .equal
  | .notEqual => binary .notEqual
  | .not => .not (operand 0)
  | .power => call .pow 2
  | .abs => call .abs 1
  | .floor => call .floor 1
  | .ceil => call .ceil 1
  | .sqrt => call .sqrt 1
  | .sin => call .sin 1
  | .cos => call .cos 1
  | .round => .call .floor [.binary .add (operand 0) (.float Scalar.half)]
  | .atan => if operands.length = 2 then call .atan2 2 else call .atan 1
  | .clamp => call .clamp 3
  | .color =>
    .makeVec4 [channel 0, channel 1, channel 2, if operands.length = 4 then operand 3 else one]

/-- The shader expression for how far `x` is from one stop to the next. -/
def factor (curve : Curve W) (x : ShaderExpr N) (low high : W) : ShaderExpr N :=
  let constant (n : W) : ShaderExpr N := .float (narrow n)
  let offset : ShaderExpr N := .binary .subtract x (constant low)
  let linear : ShaderExpr N := .binary .divide offset (constant (high - low))
  let raw := match curve with
    | .linear => linear
    | .exponential base =>
      if base == Scalar.one then linear
      else
        .binary .divide
          (.binary .subtract (.call .pow [constant base, offset]) (.float Scalar.one))
          (constant (Scalar.power base (high - low) - Scalar.one))
  .call .clamp [raw, .float Scalar.zero, .float Scalar.one]

/-- Add the segments between stops to an expression for everything below them. The last segment
whose lower stop lies below `x` is selected. -/
def segments (curve : Curve W) (x below : ShaderExpr N) :
    List (W × ShaderExpr N) → ShaderExpr N
  | (low, lowOutput) :: (high, highOutput) :: rest =>
    let mixed : ShaderExpr N := .call .mix [lowOutput, highOutput, factor curve x low high]
    let above : ShaderExpr N := .binary .greater x (.float (narrow low))
    segments curve x (.select below mixed above) ((high, highOutput) :: rest)
  | _ => below

/-- The shader expression of an interpolation over lowered outputs. -/
def ofStops (curve : Curve W) (x : ShaderExpr N) (stops : List (W × ShaderExpr N)) :
    ShaderExpr N :=
  match stops with
  | [] => .float Scalar.zero
  | (_, first) :: _ => segments curve x first stops

end ShaderExpr

namespace Expr

variable {W N : Type} [Scalar W] [Scalar N] [Precision W N]

mutual

/-- Lower an expression. -/
def lower (t : Target W N) (e : Expr W N) : Lowering (ShaderExpr N) :=
  match t.folded? e with
  | some value => t.constant value
  | none =>
    match e with
    | literal value => t.constant value
    | property name type => t.featureProperty name type
    | input source type => Target.input source type
    | operator op args _ => do return ShaderExpr.ofOperator op (← lowerAll t args)
    | interpolate curve x stops _ => do
      let x ← lower t x
      return ShaderExpr.ofStops curve x (← lowerStops t stops)
    | case branches fallback _ => do
      let fallback ← lower t fallback
      lowerBranches t fallback branches
    | external _ _ => throw (.invalidSpec (.externalInShader t.property))

/-- Lower some expressions, one after another. -/
def lowerAll (t : Target W N) : List (Expr W N) → Lowering (List (ShaderExpr N))
  | [] => return []
  | e :: rest => do
    let e ← lower t e
    return e :: (← lowerAll t rest)

/-- Lower the outputs of some stops, one after another. -/
def lowerStops (t : Target W N) : List (W × Expr W N) → Lowering (List (W × ShaderExpr N))
  | [] => return []
  | (stop, output) :: rest => do
    let output ← lower t output
    return (stop, output) :: (← lowerStops t rest)

/-- Lower branches around an expression for the case that none of their conditions holds, the
last branch first. -/
def lowerBranches (t : Target W N) (otherwise : ShaderExpr N) :
    List (Expr W N × Expr W N) → Lowering (ShaderExpr N)
  | [] => return otherwise
  | (condition, result) :: rest => do
    let otherwise ← lowerBranches t otherwise rest
    let result ← lower t result
    let condition ← lower t condition
    return .select otherwise result condition

end

end Expr

end MapStyle
