import MapStyle.Dictionary
import MapStyle.Expr.Basic

/-!
# Evaluation

The interpreter. Rounding is `floor (x + 1/2)`, the remainder is that of truncated
division, colors blend channel by channel and `atan` of two operands is the angle of
a point. An operator is a function of the results of its operands, so that the
recursion over the tree and the meaning of the operators are stated apart; of several
operands that fail, the first one the operator looks at gives the error.
-/

namespace MapStyle

/-- Why an expression has no value for a feature. -/
inductive EvalError where
  /-- A feature property is no value of the type it is read as. -/
  | propertyType (name : String) (expected found : ValueType)
  /-- A host callback returned no value of its declared type. -/
  | externalType (name : String) (expected found : ValueType)
  /-- An operand has the wrong type. -/
  | operand (operator : String) (found : ValueType)
  | missingExternal (id : Nat)
  /-- A tree built by hand lacks an operand or a stop. -/
  | missingOperand (operator : String)
deriving DecidableEq, Repr

namespace EvalError

def message : EvalError → String
  | propertyType name expected found =>
    s!"property `{name}` expected {expected.name}, found {found.name}"
  | externalType name expected found =>
    s!"external `{name}` returned {found.name}, expected {expected.name}"
  | operand operator found => s!"operand of `{operator}` evaluated to {found.name}"
  | missingExternal id => s!"external function #{id} is not registered"
  | missingOperand operator => s!"`{operator}` lacks an operand"

end EvalError

/-- What an evaluation comes to. -/
abbrev Outcome (α : Type) := Except EvalError α

/-- Everything an expression can read. -/
structure Context (W N : Type) where
  properties : Properties W N
  bindings : Dictionary (Value W N)
  externals : Registry W N
  zoom : W
  resolution : W
  time : W

variable {W N : Type} [Scalar W] [Scalar N] [Precision W N]

namespace Context

/-- The value of a frame input. A variable that is undeclared or of another type reads as the
zero of the type. -/
def read (c : Context W N) (type : ValueType) : FrameInput → Value W N
  | .zoom => .number c.zoom
  | .resolution => .number c.resolution
  | .time => .number c.time
  | .styleVariable name =>
    ((c.bindings.get? name).bind (·.coerce? type)).getD (Value.zeroOf type)

end Context

/-- Read a feature property as a type. A missing property reads as the zero of the type, and
one of another type is an error. -/
def readProperty (properties : Properties W N) (name : String) (type : ValueType) :
    Outcome (Value W N) :=
  match properties name with
  | none => .ok (Value.zeroOf type)
  | some value =>
    match value.coerce? type with
    | some value => .ok value
    | none => .error (.propertyType name type value.type)

namespace Outcome

/-- The number a result must be. -/
def number (operator : String) (r : Outcome (Value W N)) : Outcome W :=
  match r with
  | .ok (.number n) => .ok n
  | .ok other => .error (.operand operator other.type)
  | .error e => .error e

/-- The truth value a result must be. -/
def boolean (operator : String) (r : Outcome (Value W N)) : Outcome Bool :=
  match r with
  | .ok (.boolean b) => .ok b
  | .ok other => .error (.operand operator other.type)
  | .error e => .error e

end Outcome

namespace Operator

/-- The operand at a position. -/
def operandAt (op : Operator) (operands : List (Outcome (Value W N))) (index : Nat) :
    Outcome (Value W N) :=
  operands[index]?.getD (.error (.missingOperand op.name))

/-- Apply a function to the first operand. -/
def unary (op : Operator) (f : W → W) (operands : List (Outcome (Value W N))) :
    Outcome (Value W N) := do
  let x ← (op.operandAt operands 0).number op.name
  return .number (f x)

/-- Apply a function to the first two operands. -/
def binary (op : Operator) (f : W → W → W) (operands : List (Outcome (Value W N))) :
    Outcome (Value W N) := do
  let x ← (op.operandAt operands 0).number op.name
  let y ← (op.operandAt operands 1).number op.name
  return .number (f x y)

/-- Compare the first two operands as numbers. -/
def comparison (op : Operator) (test : W → W → Bool) (operands : List (Outcome (Value W N))) :
    Outcome (Value W N) := do
  let x ← (op.operandAt operands 0).number op.name
  let y ← (op.operandAt operands 1).number op.name
  return .boolean (test x y)

/-- Combine all operands from the left. -/
def accumulate (op : Operator) (f : W → W → W) :
    W → List (Outcome (Value W N)) → Outcome (Value W N)
  | total, [] => .ok (.number total)
  | total, operand :: rest => do
    let x ← operand.number op.name
    accumulate op f (f total x) rest

/-- Whether the first two operands are equal values. -/
def equality (op : Operator) (operands : List (Outcome (Value W N))) : Outcome Bool := do
  let x ← op.operandAt operands 0
  let y ← op.operandAt operands 1
  return x == y

/-- Look for an operand with a truth value; operands after it are not looked at. -/
def search (op : Operator) (sought : Bool) : List (Outcome (Value W N)) → Outcome (Value W N)
  | [] => .ok (.boolean !sought)
  | operand :: rest => do
    let b ← operand.boolean op.name
    if b = sought then return .boolean sought else search op sought rest

/-- The value of an operator, given the results of its operands. -/
def apply (op : Operator) (operands : List (Outcome (Value W N))) : Outcome (Value W N) :=
  match op with
  | add => accumulate op (· + ·) Scalar.zero operands
  | multiply => accumulate op (· * ·) Scalar.one operands
  | subtract => binary op (· - ·) operands
  | divide => binary op (· / ·) operands
  | remainder => binary op Scalar.remainder operands
  | power => binary op Scalar.power operands
  | abs => unary op Scalar.abs operands
  | floor => unary op Scalar.floor operands
  | ceil => unary op Scalar.ceil operands
  | round => unary op (fun x => Scalar.floor (x + Scalar.half)) operands
  | sqrt => unary op Scalar.sqrt operands
  | sin => unary op Scalar.sin operands
  | cos => unary op Scalar.cos operands
  | atan =>
    if operands.length = 2 then binary op Scalar.atan2 operands
    else unary op Scalar.atan operands
  | clamp => do
    let x ← (op.operandAt operands 0).number op.name
    let low ← (op.operandAt operands 1).number op.name
    let high ← (op.operandAt operands 2).number op.name
    return .number (Scalar.minimum (Scalar.maximum x low) high)
  | greater => comparison op (fun x y => Scalar.lt y x) operands
  | greaterEqual => comparison op (fun x y => Scalar.le y x) operands
  | less => comparison op Scalar.lt operands
  | lessEqual => comparison op Scalar.le operands
  | equal => do return .boolean (← equality op operands)
  | notEqual => do return .boolean !(← equality op operands)
  | not => do return .boolean !(← (op.operandAt operands 0).boolean op.name)
  | all => search op false operands
  | any => search op true operands
  | color => do
    let alpha ← if operands.length = 4 then (op.operandAt operands 3).number op.name
      else pure Scalar.one
    let red ← (op.operandAt operands 0).number op.name
    let green ← (op.operandAt operands 1).number op.name
    let blue ← (op.operandAt operands 2).number op.name
    return .color (Color.ofChannels red green blue alpha)

end Operator

namespace Curve

/-- The name under which interpolation reports operands. -/
def operatorName : String := "interpolate"

/-- Of the segments between consecutive stops, the last one whose lower stop lies below `x`, or
the given one when there is none. -/
def lastSegment {α : Type} (x : W) : (W × α) × (W × α) → List (W × α) → (W × α) × (W × α)
  | segment, low :: high :: rest =>
    lastSegment x (if Scalar.lt low.1 x then (low, high) else segment) (high :: rest)
  | segment, _ => segment

/-- Blend the outputs of two stops. -/
def blend (t : W) : Value W N → Value W N → Outcome (Value W N)
  | .number a, .number b => .ok (.number (a + (b - a) * t))
  | .color a, .color b => .ok (.color (a.mix b (narrow t)))
  | other, _ => .error (.operand operatorName other.type)

/-- The value at `x` of a curve through stops whose outputs have been evaluated. -/
def sample (curve : Curve W) (x : W) : List (W × Outcome (Value W N)) → Outcome (Value W N)
  | [] => .error (.missingOperand operatorName)
  | [(_, output)] => output
  | first :: second :: rest =>
    if Scalar.le x first.1 then first.2
    else do
      let ((low, lowOutput), (high, highOutput)) :=
        lastSegment x (first, second) (second :: rest)
      blend (curve.factor x low high) (← lowOutput) (← highOutput)

end Curve

namespace Expr

/-- The name under which `case` reports its conditions. -/
def caseName : String := "case"

/-- The result of the first condition that holds, or the fallback. -/
def choose (fallback : Outcome (Value W N)) :
    List (Outcome (Value W N) × Outcome (Value W N)) → Outcome (Value W N)
  | [] => fallback
  | (condition, result) :: rest => do
    if ← condition.boolean caseName then result else choose fallback rest

mutual

/-- The value of an expression. -/
def evaluate (c : Context W N) : Expr W N → Outcome (Value W N)
  | literal value => .ok value
  | property name type => readProperty c.properties name type
  | input source type => .ok (c.read type source)
  | operator op args _ => op.apply (evaluateAll c args)
  | interpolate curve x stops _ => do
    curve.sample (← (evaluate c x).number Curve.operatorName) (evaluateStops c stops)
  | case branches fallback _ => choose (evaluate c fallback) (evaluateBranches c branches)
  | external id type =>
    match c.externals.get? id with
    | none => .error (.missingExternal id)
    | some entry =>
      let value := entry.call c.properties
      match value.coerce? type with
      | some value => .ok value
      | none => .error (.externalType entry.name type value.type)

/-- The values of some expressions. -/
def evaluateAll (c : Context W N) : List (Expr W N) → List (Outcome (Value W N))
  | [] => []
  | e :: rest => evaluate c e :: evaluateAll c rest

/-- The values of the outputs of some stops. -/
def evaluateStops (c : Context W N) : List (W × Expr W N) → List (W × Outcome (Value W N))
  | [] => []
  | (stop, output) :: rest => (stop, evaluate c output) :: evaluateStops c rest

/-- The values of the conditions and results of some branches. -/
def evaluateBranches (c : Context W N) :
    List (Expr W N × Expr W N) → List (Outcome (Value W N) × Outcome (Value W N))
  | [] => []
  | (condition, result) :: rest =>
    (evaluate c condition, evaluate c result) :: evaluateBranches c rest

end

end Expr

end MapStyle
