import MapStyle.CompileError
import MapStyle.Expr.Basic
import MapStyle.Json.Basic
import MapStyle.Schema

/-!
# Parsing and typing of expressions

The value of a style property is a JSON tree: scalars are literals, and a list that
starts with a string calls an operator. Types are inferred from the leaves upwards
and checked against the signature of every operator; an expected type goes down only
as a hint for literals and for properties of undeclared type. Three forms have no
node of their own: `match`, `in` and `between` are parsed into comparisons.

One parser reads all properties of a style. It remembers the one it is at, and whatever it refuses
it refuses in the name of that property.
-/

namespace MapStyle

/-- The declarations an expression may use. -/
structure Environment (W N : Type) where
  /-- Without a schema every property takes its type from its use. -/
  schema : Option (Schema W)
  bindings : Dictionary (Value W N)
  externals : Registry W N

/-- No declarations: no schema, no variables and no callbacks. -/
def Environment.empty {W N : Type} : Environment W N := ⟨none, .empty, .empty⟩

/-- What parsing comes to. -/
abbrev Parsed (α : Type) := Except CompileError α

/-- A parser, with the declarations it reads under and the name of the property it is at. -/
structure Parser (W N : Type) where
  environment : Environment W N
  property : String

namespace Parser

variable {W N : Type}

/-- A parser that has not come to a property yet. -/
def start (env : Environment W N) : Parser W N := ⟨env, ""⟩

@[simp] theorem start_environment (env : Environment W N) : (start env).environment = env := rfl

variable (parser : Parser W N)

def arityMismatch (operator expected : String) (got : Nat) : CompileError :=
  .expression parser.property (.arityMismatch operator expected got)

def typeMismatch (operator expected : String) (got : ValueType) : CompileError :=
  .expression parser.property (.typeMismatch operator expected got)

def invalidLiteral (reason : String) : CompileError :=
  .expression parser.property (.invalidLiteral reason)

end Parser

/-! ## Arity -/

/-- How many arguments an operator takes; without an upper bound, any greater number. -/
structure Arity where
  least : Nat
  most : Option Nat
deriving DecidableEq, Repr

namespace Arity

def exactly (count : Nat) : Arity := ⟨count, some count⟩

def atLeast (count : Nat) : Arity := ⟨count, none⟩

def admits (arity : Arity) (count : Nat) : Bool :=
  arity.least ≤ count && match arity.most with
    | some most => count ≤ most
    | none => true

def text (arity : Arity) : String :=
  match arity.most with
  | some most => if most = arity.least then toString most else s!"{arity.least} to {most}"
  | none => s!"at least {arity.least}"

end Arity

/-- The argument type, arity and result type of an operator. -/
structure Signature where
  argument : ValueType
  arity : Arity
  result : ValueType
deriving DecidableEq, Repr

/-- The signature of an operator. The operands of an equality are of one type, whichever it is. -/
def Operator.signature : Operator → Signature
  | add | multiply => ⟨.number, .atLeast 2, .number⟩
  | subtract | divide | remainder | power => ⟨.number, .exactly 2, .number⟩
  | abs | floor | ceil | round | sqrt | sin | cos => ⟨.number, .exactly 1, .number⟩
  | atan => ⟨.number, ⟨1, some 2⟩, .number⟩
  | clamp => ⟨.number, .exactly 3, .number⟩
  | greater | greaterEqual | less | lessEqual => ⟨.number, .exactly 2, .boolean⟩
  | equal | notEqual => ⟨.number, .exactly 2, .boolean⟩
  | not => ⟨.boolean, .exactly 1, .boolean⟩
  | all | any => ⟨.boolean, .atLeast 2, .boolean⟩
  | color => ⟨.number, ⟨3, some 4⟩, .color⟩

namespace Parse

variable {W N : Type} [Scalar W] [Scalar N] [Precision W N]

/-! ## Checks and leaves -/

section Leaves

variable (parser : Parser W N)

/-- Refuse a wrong number of arguments. -/
def checkArity (arity : Arity) (operator : String) (count : Nat) : Parsed Unit :=
  if arity.admits count then .ok () else .error (parser.arityMismatch operator arity.text count)

/-- Refuse an expression of another type. -/
def expect (operator : String) (expected : ValueType) (e : Expr W N) : Parsed Unit :=
  if e.type = expected then .ok ()
  else .error (parser.typeMismatch operator expected.name e.type)

/-- The name an operator takes as its argument. -/
def nameArgument (operator : String) : Json → Parsed String
  | .string name => .ok name
  | _ => .error (parser.invalidLiteral s!"`{operator}` takes a name string")

/-- The value of a scalar without any hint. -/
def scalar? : Json → Option (Value W N)
  | .bool b => some (.boolean b)
  | .number n => some (.number n.toScalar)
  | .string s => some (.string s)
  | _ => none

/-- The type a scalar has without any hint. -/
def scalarType? : Json → Option ValueType
  | .bool _ => some .boolean
  | .number _ => some .number
  | .string _ => some .string
  | _ => none

/-- A text, which is read as a color where a color is expected. -/
def ofText (s : String) (hint : Option ValueType) : Parsed (Expr W N) :=
  if hint = some .color then
    match Color.ofText? W s with
    | some c => .ok (.literal (.color c))
    | none => .error (parser.invalidLiteral s!"`{s}` is not a color")
  else .ok (.literal (.string s))

/-- A list of numbers, which is read as a color where a color is expected. -/
def ofNumbers (items : List Json) (hint : Option ValueType) : Parsed (Expr W N) :=
  match Json.numbers? (α := W) items with
  | none => .error (parser.invalidLiteral "arrays must hold only numbers")
  | some numbers =>
    if hint = some .color then
      match Color.ofComponents? numbers with
      | some c => .ok (.literal (.color c))
      | none => .error (parser.invalidLiteral "colors need 3 or 4 channels")
    else .ok (.literal (.numberArray numbers))

/-- A feature property. Declared strings may hold colors; an undeclared type comes from the use. -/
def ofProperty (name : String) (hint : Option ValueType) : Parsed (Expr W N) :=
  match parser.environment.schema with
  | none => .ok (.property name (hint.getD .number))
  | some schema =>
    match schema.get? name with
    | none => .error (.expression parser.property (.unresolvedProperty name))
    | some declaration =>
      if declaration.type = .string ∧ hint = some .color then .ok (.property name .color)
      else .ok (.property name declaration.type)

/-- A style variable, which has the type of its default. -/
def ofVariable (name : String) : Parsed (Expr W N) :=
  match parser.environment.bindings.get? name with
  | none => .error (.expression parser.property (.unresolvedVariable name))
  | some value => .ok (.input (.styleVariable name) value.type)

/-- A host callback, which has its registered type. -/
def ofExternal (name : String) : Parsed (Expr W N) :=
  match parser.environment.externals.lookup? name with
  | none => .error (.expression parser.property (.unknownExternal name))
  | some (id, type) => .ok (.external id type)

/-- The curve an interpolation names. -/
def curveOf : Json → Parsed (Curve W)
  | .array [.string "linear"] => .ok .linear
  | .array [.string "exponential", base] =>
    match base.number? (α := W) with
    | some base => .ok (.exponential base)
    | none => .error (parser.invalidLiteral "exponential base must be a number")
  | _ => .error (parser.invalidLiteral
      "interpolation type must be [\"linear\"] or [\"exponential\", base]")

/-- Refuse a stop that does not lie above the stop before it. -/
def ascend (previous : Option W) (stop : W) : Parsed Unit :=
  match previous with
  | some previous =>
    if Scalar.le stop previous then .error (.expression parser.property .invalidStops) else .ok ()
  | none => .ok ()

/-- The result of a branch must have the type of the branches before it, if there is one. -/
def unify (operator : String) (type : Option ValueType) (e : Expr W N) : Parsed ValueType :=
  match type with
  | some expected => do
    expect parser operator expected e
    return expected
  | none => .ok e.type

end Leaves

/-! ## Forms without a node of their own -/

/-- The comparison of two expressions for equality. -/
def equality (op : Operator) (left right : Expr W N) : Expr W N :=
  .operator op [left, right] .boolean

/-- Whether `x` lies between two bounds, both included. -/
def between (x low high : Expr W N) : Expr W N :=
  .operator .all
    [.operator .greaterEqual [x, low] .boolean, .operator .lessEqual [x, high] .boolean] .boolean

/-- The items of the second argument of `in`: a list, bare or called `literal`. -/
def haystack (parser : Parser W N) : Json → Parsed (List Json)
  | .array [.string "literal", .array items] => .ok items
  | .array (.string _ :: _) => .error (parser.invalidLiteral
      "`in` haystack must be a literal array; wrap it in [\"literal\", [...]]")
  | .array items => .ok items
  | _ => .error (parser.invalidLiteral "`in` haystack must be an array")

/-- The type of the items `in` searches, which the first of them tells. -/
def haystackType (parser : Parser W N) : List Json → Parsed ValueType
  | [] => .ok .number
  | first :: _ =>
    match scalarType? first with
    | some .number => .ok .number
    | some .string => .ok .string
    | _ => .error (parser.invalidLiteral "`in` haystack must hold numbers or strings")

/-- The common type of the items `in` searches, and their values. -/
def haystackValues (parser : Parser W N) (items : List Json) :
    Parsed (ValueType × List (Value W N)) := do
  let type ← haystackType parser items
  if items.any (scalarType? · != some type) then
    throw (parser.invalidLiteral "`in` haystack items must share one type")
  return (type, items.filterMap scalar?)

/-- Whether an expression equals one of some values. -/
def membership (needle : Expr W N) (values : List (Value W N)) : Expr W N :=
  match values.map fun value => equality .equal needle (.literal value) with
  | [] => .literal (.boolean false)
  | [comparison] => comparison
  | comparisons => .operator .any comparisons .boolean

/-- The label of a `match` branch, whose type must be that of the first label. -/
def label (parser : Parser W N) (type : ValueType) (json : Json) : Parsed (Value W N) :=
  match scalar? json with
  | none => .error (parser.invalidLiteral "match labels must be literals")
  | some value =>
    if value.type = type then .ok value
    else .error (parser.typeMismatch "match" type.name value.type)

/-- A color from channels: a literal when all channels are, with alpha one when it is left out. -/
def colorOf (channels : List (Expr W N)) : Expr W N :=
  let values := channels.mapM fun channel => channel.literal?.bind Value.asNumber?
  match values.bind Color.ofComponents? with
  | some color => .literal (.color color)
  | none =>
    let alpha := if channels.length = 3 then [.literal (.number Scalar.one)] else []
    .operator .color (channels ++ alpha) .color

/-! ## Call forms -/

/-- The forms of a call. -/
inductive Form where
  | property
  | styleVariable
  | external
  | literal
  | case
  | labelled
  | interpolate
  | between
  | membership
  | color
  | equality (op : Operator)
  | input (source : FrameInput)
  | operator (op : Operator)
deriving DecidableEq, Repr

/-- The names of the forms other than plain operators. -/
def forms : List (String × Form) := [
  ("get", .property), ("var", .styleVariable), ("zoom", .input .zoom),
  ("resolution", .input .resolution), ("time", .input .time), ("external", .external),
  ("literal", .literal), ("case", .case), ("match", .labelled), ("interpolate", .interpolate),
  ("between", .between), ("in", .membership), ("color", .color), ("rgb", .color),
  ("rgba", .color), ("==", .equality .equal), ("!=", .equality .notEqual)]

/-- The form that is called by a name. -/
def Form.ofName? (name : String) : Option Form :=
  (forms.lookup name).or ((Operator.ofName? name).map .operator)

/-- An argument of a call: as it is written, and parsed once its context's hint is known. -/
structure Argument (W N : Type) where
  json : Json
  parse : Option ValueType → Parsed (Expr W N)

/-- Parse an argument and refuse another type than the hint. -/
def Argument.parseAs (argument : Argument W N) (parser : Parser W N) (operator : String)
    (type : ValueType) : Parsed (Expr W N) := do
  let e ← argument.parse (some type)
  expect parser operator type e
  return e

/-- Parse the result of a branch, and tell the type of the branches from there on. -/
def Argument.parseBranch (argument : Argument W N) (parser : Parser W N) (operator : String)
    (type : Option ValueType) : Parsed (Expr W N × ValueType) := do
  let e ← argument.parse type
  let type ← unify parser operator type e
  return (e, type)

/-- Parse conditions with their results, and the fallback after them. -/
def branches (parser : Parser W N) (operator : String) (type : Option ValueType) :
    List (Argument W N) → Parsed (List (Expr W N × Expr W N) × Expr W N)
  | condition :: result :: rest => do
    let condition ← condition.parseAs parser operator .boolean
    let (result, type) ← result.parseBranch parser operator type
    let (others, fallback) ← branches parser operator (some type) rest
    return ((condition, result) :: others, fallback)
  | [fallback] => do
    let (fallback, _) ← fallback.parseBranch parser operator type
    return ([], fallback)
  | [] => .error (parser.arityMismatch operator "a fallback among the" 0)

/-- Parse labels with their results, and the fallback after them. The condition of a branch is
that the input equals the label. -/
def labelledBranches (parser : Parser W N) (operator : String) (type : Option ValueType)
    (input : Expr W N) (labelType : ValueType) :
    List (Argument W N) → Parsed (List (Expr W N × Expr W N) × Expr W N)
  | first :: result :: rest => do
    let value ← label parser labelType first.json
    let (result, type) ← result.parseBranch parser operator type
    let (others, fallback) ← labelledBranches parser operator (some type) input labelType rest
    return ((equality .equal input (.literal value), result) :: others, fallback)
  | [fallback] => do
    let (fallback, _) ← fallback.parseBranch parser operator type
    return ([], fallback)
  | [] => .error (parser.arityMismatch operator "a fallback among the" 0)

/-- Parse stops with their outputs. -/
def stops (parser : Parser W N) (operator : String) (type : Option ValueType)
    (previous : Option W) : List (Argument W N) → Parsed (List (W × Expr W N))
  | stop :: output :: rest =>
    match stop.json.number? (α := W) with
    | none => .error (.expression parser.property .invalidStops)
    | some stop => do
      ascend parser previous stop
      let (output, type) ← output.parseBranch parser operator type
      let others ← stops parser operator (some type) (some stop) rest
      return (stop, output) :: others
  | _ => .ok []

/-- An interpolation over parsed stops; the first output tells its type. -/
def interpolation (parser : Parser W N) (operator : String) (curve : Curve W)
    (input : Expr W N) (stops : List (W × Expr W N)) : Parsed (Expr W N) :=
  match stops with
  | [] => .error (.expression parser.property .invalidStops)
  | (_, first) :: _ =>
    if first.type = .number ∨ first.type = .color then
      .ok (.interpolate curve input stops first.type)
    else .error (parser.typeMismatch operator "number or color outputs" first.type)

/-- The number of channels a color constructor takes. -/
def colorArity (name : String) : Arity :=
  if name = "rgb" then .exactly 3 else if name = "rgba" then .exactly 4 else ⟨3, some 4⟩

/-- The error for a number of arguments that a form does not take. -/
def arityFault (parser : Parser W N) (name expected : String) (args : List (Argument W N)) :
    Parsed (Expr W N) :=
  .error (parser.arityMismatch name expected args.length)

/-- Parse a call of a form. The name is the one the form was called by. -/
def form (parser : Parser W N) (hint : Option ValueType) (name : String)
    (args : List (Argument W N)) : Form → Parsed (Expr W N)
  | .property =>
    match args with
    | [argument] => do ofProperty parser (← nameArgument parser name argument.json) hint
    | _ => arityFault parser name (Arity.exactly 1).text args
  | .styleVariable =>
    match args with
    | [argument] => do ofVariable parser (← nameArgument parser name argument.json)
    | _ => arityFault parser name (Arity.exactly 1).text args
  | .external =>
    match args with
    | [argument] => do ofExternal parser (← nameArgument parser name argument.json)
    | _ => arityFault parser name (Arity.exactly 1).text args
  | .input source => do
    checkArity parser (.exactly 0) name args.length
    return .input source .number
  | .literal =>
    match args with
    | [argument] =>
      match argument.json with
      | .array items => ofNumbers parser items hint
      | _ => argument.parse hint
    | _ => arityFault parser name (Arity.exactly 1).text args
  | .case =>
    if args.length < 3 ∨ args.length % 2 = 0 then
      arityFault parser name "an odd number (at least 3) of" args
    else do
      let (branches, fallback) ← branches parser name hint args
      return .case branches fallback fallback.type
  | .labelled =>
    match args with
    | input :: first :: rest =>
      if args.length < 4 ∨ args.length % 2 ≠ 0 then
        arityFault parser name "an even number (at least 4) of" args
      else
        match scalarType? first.json with
        | none => .error (parser.invalidLiteral "match labels must be literals")
        | some type => do
          let input ← input.parseAs parser name type
          let (branches, fallback) ← labelledBranches parser name hint input type (first :: rest)
          return .case branches fallback fallback.type
    | _ => arityFault parser name "an even number (at least 4) of" args
  | .interpolate =>
    match args with
    | curve :: input :: rest =>
      if args.length < 4 ∨ args.length % 2 ≠ 0 then
        arityFault parser name "a type, an input and stop/output pairs:" args
      else do
        let curve ← curveOf parser curve.json
        let input ← input.parseAs parser name .number
        interpolation parser name curve input (← stops parser name hint none rest)
    | _ => arityFault parser name "a type, an input and stop/output pairs:" args
  | .between =>
    match args with
    | [x, low, high] => do
      let x ← x.parseAs parser name .number
      let low ← low.parseAs parser name .number
      let high ← high.parseAs parser name .number
      return between x low high
    | _ => arityFault parser name (Arity.exactly 3).text args
  | .membership =>
    match args with
    | [needle, items] => do
      let (type, values) ← haystackValues parser (← haystack parser items.json)
      return membership (← needle.parseAs parser name type) values
    | _ => arityFault parser name (Arity.exactly 2).text args
  | .color => do
    checkArity parser (colorArity name) name args.length
    return colorOf (← args.mapM (·.parseAs parser name .number))
  | .equality op =>
    match args with
    | [left, right] => do
      let left' ← left.parse ((scalarType? left.json).or (scalarType? right.json))
      let right' ← right.parse (some left'.type)
      if left'.type = .numberArray then
        throw (parser.typeMismatch name "number, boolean, color or string" left'.type)
      expect parser name left'.type right'
      return equality op left' right'
    | _ => arityFault parser name (Arity.exactly 2).text args
  | .operator op => do
    checkArity parser op.signature.arity name args.length
    return .operator op (← args.mapM (·.parseAs parser name op.signature.argument))
      op.signature.result

/-- Parse a call by name. -/
def call (parser : Parser W N) (hint : Option ValueType) (name : String)
    (args : List (Argument W N)) : Parsed (Expr W N) :=
  match Form.ofName? name with
  | some f => form parser hint name args f
  | none => .error (.expression parser.property (.unknownOperator name))

/-! ## Trees -/

mutual

/-- Parse a tree. The hint is the type the context expects, if it expects one. -/
def tree (parser : Parser W N) : Json → Option ValueType → Parsed (Expr W N)
  | .bool b, _ => .ok (.literal (.boolean b))
  | .number n, _ => .ok (.literal (.number n.toScalar))
  | .string s, hint => ofText parser s hint
  | .null, _ => .error (parser.invalidLiteral "null is not a value")
  | .object _, _ => .error (parser.invalidLiteral "objects are not values")
  | .array [], _ => .error (parser.invalidLiteral "empty array")
  | .array (.string name :: args), hint => call parser hint name (arguments parser args)
  | .array (item :: rest), hint => ofNumbers parser (item :: rest) hint

/-- The arguments of a call. -/
def arguments (parser : Parser W N) : List Json → List (Argument W N)
  | [] => []
  | json :: rest => ⟨json, tree parser json⟩ :: arguments parser rest

end

/-- Parse the value of a style property and check its type. The parser is at this property from
then on, whether the value is refused or not. -/
def value (parser : Parser W N) (name : String) (expected : ValueType) (json : Json) :
    Parsed (Expr W N) × Parser W N :=
  let parser := { parser with property := name }
  ((Argument.mk json (tree parser json)).parseAs parser "value" expected, parser)

/-- What a parser makes of a value that it reads first. -/
def property (env : Environment W N) (name : String) (expected : ValueType) (json : Json) :
    Parsed (Expr W N) :=
  (value (.start env) name expected json).1

end Parse

end MapStyle
