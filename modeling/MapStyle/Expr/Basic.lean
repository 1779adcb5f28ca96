import MapStyle.External

/-!
# Expressions

The typed trees that style expressions are parsed into. The interpreter, the choice
of a tier and the lowering to shaders all work on these trees. A tree may be built by
hand, and then nothing holds it to the operators' signatures.
-/

namespace MapStyle

/-- The operators of the expression language. -/
inductive Operator where
  | add
  | subtract
  | multiply
  | divide
  | remainder
  | power
  | abs
  | floor
  | ceil
  | round
  | sqrt
  | sin
  | cos
  | atan
  | clamp
  | greater
  | greaterEqual
  | less
  | lessEqual
  | equal
  | notEqual
  | not
  | all
  | any
  /-- A color from red, green and blue up to 255 and alpha up to one. -/
  | color
deriving DecidableEq, Repr

namespace Operator

/-- Every operator, in the order of their digest words. -/
def values : List Operator := [add, subtract, multiply, divide, remainder, power, abs, floor, ceil,
  round, sqrt, sin, cos, atan, clamp, greater, greaterEqual, less, lessEqual, equal, notEqual, not,
  all, any, color]

def name : Operator → String
  | add => "+"
  | subtract => "-"
  | multiply => "*"
  | divide => "/"
  | remainder => "%"
  | power => "^"
  | abs => "abs"
  | floor => "floor"
  | ceil => "ceil"
  | round => "round"
  | sqrt => "sqrt"
  | sin => "sin"
  | cos => "cos"
  | atan => "atan"
  | clamp => "clamp"
  | greater => ">"
  | greaterEqual => ">="
  | less => "<"
  | lessEqual => "<="
  | equal => "=="
  | notEqual => "!="
  | not => "!"
  | all => "all"
  | any => "any"
  | color => "color"

/-- The operator a style calls by name. Colors have call forms of their own. -/
def ofName? (name : String) : Option Operator :=
  values.find? fun op => op.name == name && op != color

/-- The word an operator contributes to a digest. -/
def word (op : Operator) : Word := .number (values.idxOf op)

end Operator

/-- What every feature of one draw call shares. -/
inductive FrameInput where
  | zoom
  | resolution
  | time
  | styleVariable (name : String)
deriving DecidableEq, Repr

namespace FrameInput

/-- What a frame input contributes to a digest. -/
def words : FrameInput → List Word
  | zoom => [.number 0]
  | resolution => [.number 1]
  | time => [.number 2]
  | styleVariable name => .number 3 :: Word.ofString name

end FrameInput

/-- The curve between two stops. -/
inductive Curve (W : Type) where
  | linear
  | exponential (base : W)

namespace Curve

variable {W : Type} [Scalar W]

/-- How far `x` is from one stop to the next, clamped between zero and one. -/
def factor (curve : Curve W) (x low high : W) : W :=
  let linear := (x - low) / (high - low)
  let raw := match curve with
    | .linear => linear
    | .exponential base =>
      if base == Scalar.one then linear
      else
        (Scalar.power base (x - low) - Scalar.one) / (Scalar.power base (high - low) - Scalar.one)
  Scalar.clamp raw Scalar.zero Scalar.one

instance : BEq (Curve W) where
  beq
    | .linear, .linear => true
    | .exponential a, .exponential b => a == b
    | _, _ => false

/-- What a curve contributes to a digest. -/
def words : Curve W → List Word
  | .linear => [.number 0]
  | .exponential base => [.number 1, .number (Scalar.code base)]

end Curve

/-- A typed expression. -/
inductive Expr (W N : Type) where
  | literal (value : Value W N)
  /-- A feature property read as a type. -/
  | property (name : String) (type : ValueType)
  | input (source : FrameInput) (type : ValueType)
  | operator (op : Operator) (args : List (Expr W N)) (type : ValueType)
  | interpolate (curve : Curve W) (input : Expr W N) (stops : List (W × Expr W N))
      (type : ValueType)
  /-- The result of the first condition that holds, or the fallback. -/
  | case (branches : List (Expr W N × Expr W N)) (fallback : Expr W N) (type : ValueType)
  /-- A host callback, by its number. -/
  | external (id : Nat) (type : ValueType)

namespace Expr

variable {W N : Type}

def type : Expr W N → ValueType
  | literal value => value.type
  | property _ type | input _ type | operator _ _ type | interpolate _ _ _ type | case _ _ type
  | external _ type => type

def literal? : Expr W N → Option (Value W N)
  | literal value => some value
  | _ => none

variable [Scalar W] [Scalar N]

/-! ## Equality -/

mutual

/-- Trees are equal when they have one form and equal parts, numbers being compared as numbers. -/
def equal : Expr W N → Expr W N → Bool
  | literal a, literal b => a == b
  | property a s, property b t => a == b && s == t
  | input a s, input b t => a == b && s == t
  | operator o a s, operator p b t => o == p && equalAll a b && s == t
  | interpolate c x a s, interpolate d y b t => c == d && equal x y && equalStops a b && s == t
  | case a f s, case b g t => equalBranches a b && equal f g && s == t
  | external a s, external b t => a == b && s == t
  | _, _ => false

/-- Whether two lists of trees are equal tree by tree. -/
def equalAll : List (Expr W N) → List (Expr W N) → Bool
  | [], [] => true
  | a :: as, b :: bs => equal a b && equalAll as bs
  | _, _ => false

/-- Whether two lists of stops are equal stop by stop. -/
def equalStops : List (W × Expr W N) → List (W × Expr W N) → Bool
  | [], [] => true
  | (s, a) :: as, (t, b) :: bs => s == t && equal a b && equalStops as bs
  | _, _ => false

/-- Whether two lists of branches are equal branch by branch. -/
def equalBranches : List (Expr W N × Expr W N) → List (Expr W N × Expr W N) → Bool
  | [], [] => true
  | (c, a) :: as, (d, b) :: bs => equal c d && equal a b && equalBranches as bs
  | _, _ => false

end

instance : BEq (Expr W N) := ⟨equal⟩

/-! ## Digests -/

mutual

/-- What a tree contributes to a digest: the form of every node, its own contents and those of
the nodes below, with the length of every list ahead of the list. -/
def words : Expr W N → List Word
  | literal value => .number 0 :: value.words
  | property name type => .number 1 :: Word.ofString name ++ [type.word]
  | input source type => .number 2 :: source.words ++ [type.word]
  | operator op args type =>
    [.number 3, op.word, type.word, .number args.length] ++ wordsOfAll args
  | interpolate curve x stops type =>
    .number 4 :: curve.words ++ type.word :: words x ++ .number stops.length ::
      wordsOfStops stops
  | case branches fallback type =>
    [.number 5, type.word, .number branches.length] ++ wordsOfBranches branches ++ words fallback
  | external id type => [.number 6, .number id, type.word]

/-- What some trees contribute one after another. -/
def wordsOfAll : List (Expr W N) → List Word
  | [] => []
  | e :: rest => words e ++ wordsOfAll rest

/-- What some stops contribute one after another. -/
def wordsOfStops : List (W × Expr W N) → List Word
  | [] => []
  | (stop, output) :: rest => .number (Scalar.code stop) :: words output ++ wordsOfStops rest

/-- What some branches contribute one after another. -/
def wordsOfBranches : List (Expr W N × Expr W N) → List Word
  | [] => []
  | (condition, result) :: rest => words condition ++ words result ++ wordsOfBranches rest

end

end Expr

end MapStyle
