import MapStyle.Shader.Program
import MapStyle.Style.Parsed
import MapStyle.Style.Tier
import MapStyle.Uniform.Frame

/-!
# Compiled styles

A compiled style holds what is needed to tessellate tiles with it and to draw them:
the tier and the shader value of every property, the packing plan, the uniform layout
and the programs. Compiling a parsed style fails only when two properties that are
computed in the shader read one feature property as two types.

Such a style is read in two ways: the interpreter evaluates a property for a feature,
and a shader computes it in the scope that the packed attributes of the feature and
the uniform block of the frame make up.
-/

namespace MapStyle

/-- A property with its tier. -/
structure CompiledProperty (W N : Type) where
  property : StyleProperty
  expr : Expr W N
  tier : Tier
  /-- The value in the vertex stage; properties of tessellation have none. -/
  shader : Option (ShaderExpr N)

/-- A style that is ready for use. -/
structure CompiledStyle (W N : Type) where
  hash : UInt64
  properties : List (CompiledProperty W N)
  plan : Plan W N
  uniforms : UniformLayout
  programs : List ShaderProgram
  bindings : Dictionary (Value W N)
  externals : Registry W N

namespace ParsedStyle

variable {W N : Type} [Scalar W] [Scalar N] [Precision W N]

/-! ## Packing -/

/-- The requests made so far, and the types of the feature properties among them. -/
structure Requests (W N : Type) where
  requests : List (AttributeRequest W N)
  types : List (String × ValueType)

/-- The declared range of a feature property that is read as a number. -/
def boundsOf (style : ParsedStyle W N) (name : String) (type : ValueType) : Option (W × W) :=
  if type = .number then
    (style.schema.bind (·.get? name)).bind Declaration.bounds?
  else none

/-- Request a feature property for shader code. It has one attribute, so all code must read it
as one type. -/
def requestProperty (style : ParsedStyle W N) (property : StyleProperty) (r : Requests W N)
    (name : String) (type : ValueType) : Except CompileError (Requests W N) :=
  match r.types.lookup name with
  | some known =>
    if known = type then .ok r
    else .error (.expression property.name (.typeMismatch "get" known.name type))
  | none =>
    .ok ⟨r.requests ++ [.ofProperty name type (style.boundsOf name type)],
      r.types ++ [(name, type)]⟩

/-- Make the requests of one property. -/
def requestFor (style : ParsedStyle W N) (r : Requests W N) (property : StyleProperty)
    (e : Expr W N) : Except CompileError (Requests W N) :=
  match Tier.of property e with
  | .preEvaluated => .ok { r with requests := r.requests ++ [.ofEvaluated property e] }
  | .inline =>
    e.dependencies.properties.foldlM
      (fun r (name, type) => style.requestProperty property r name type) r
  | .uniform | .cull | .cpuOnly => .ok r

/-- The requests of all properties. -/
def requests (style : ParsedStyle W N) : Except CompileError (List (AttributeRequest W N)) :=
  (style.properties.foldlM (fun r (property, e) => style.requestFor r property e)
    (⟨[], []⟩ : Requests W N)).map Requests.requests

/-! ## Shader values -/

/-- The shader value of a property, if shaders see it. -/
def shaderValue (style : ParsedStyle W N) (plan : Plan W N) (property : StyleProperty)
    (e : Expr W N) : Lowering (Option (ShaderExpr N)) :=
  match Tier.of property e with
  | .uniform => do
    let (layout, name) := (← get).property property
    set layout
    return some (.uniform name (ShaderType.of property.type))
  | .inline => do
    return some (← e.lower ⟨property.name, plan, style.bindings, style.externals⟩)
  | .preEvaluated =>
    match plan.evaluated? property with
    | some a => return some (.unpacked a.unpackedName a.shaderType)
    | none => throw (.invalidSpec (.noAttribute property.name))
  | .cull => return some (.bool true)
  | .cpuOnly => return none

/-- The properties with their tiers and shader values. -/
def compiledProperties (style : ParsedStyle W N) (plan : Plan W N) :
    List (StyleProperty × Expr W N) → Lowering (List (CompiledProperty W N))
  | [] => return []
  | (property, e) :: rest => do
    let shader ← style.shaderValue plan property e
    return ⟨property, e, Tier.of property e, shader⟩ :: (← style.compiledProperties plan rest)

/-- The kinds of geometry a style draws: those that some property switches on. -/
def kinds (style : ParsedStyle W N) : List ProgramKind :=
  ProgramKind.all.filter fun kind => style.properties.any (·.1.program? = some kind)

/-- Compile a parsed style. -/
def lower (style : ParsedStyle W N) : Except CompileError (CompiledStyle W N) := do
  let plan := Plan.ofRequests (← style.requests)
  let (properties, uniforms) :=
    (style.compiledProperties plan style.properties).run.run UniformLayout.initial
  let properties ← properties
  let hash := style.hash
  let inputs : ProgramInputs W N :=
    { header := s!"style {Digest.text hash}"
      plan
      uniforms
      values := properties.filterMap fun p => p.shader.map (p.property, ·) }
  return {
    hash
    properties
    plan
    uniforms
    programs := style.kinds.map inputs.program
    bindings := style.bindings
    externals := style.externals }

end ParsedStyle

namespace CompiledStyle

variable {W N : Type} [Scalar W] [Scalar N] [Precision W N]

/-- Parse and compile a specification. -/
def ofSpec (spec : StyleSpec W N) : Except CompileError (CompiledStyle W N) := do
  (← ParsedStyle.ofSpec spec).lower

def property? (style : CompiledStyle W N) (property : StyleProperty) :
    Option (CompiledProperty W N) :=
  style.properties.find? (·.property = property)

def hasProgram (style : CompiledStyle W N) (kind : ProgramKind) : Bool :=
  style.programs.any (·.kind = kind)

/-! ## Evaluation -/

/-- The context of a feature while its tile is built. The zoom of the tile and the defaults of
the variables stand for the inputs of a frame. -/
def buildContext (style : CompiledStyle W N) (properties : Properties W N) (zoom : W) :
    Context W N :=
  { properties
    bindings := style.bindings
    externals := style.externals
    zoom
    resolution := Scalar.one
    time := Scalar.zero }

/-- The value of a property, which is its default when the style leaves it out. -/
def evaluate (style : CompiledStyle W N) (property : StyleProperty) (c : Context W N) :
    Outcome (Value W N) :=
  match style.property? property with
  | some compiled => compiled.expr.evaluate c
  | none => .ok property.default

/-- Whether a feature is drawn at all. Only a filter that is applied while tessellating can
leave a feature out. -/
def passesFilter (style : CompiledStyle W N) (c : Context W N) : Outcome Bool :=
  match style.property? .filter with
  | some filter =>
    if filter.tier = .cull then do
      return (← filter.expr.evaluate c).asBoolean?.getD false
    else .ok true
  | none => .ok true

/-- The value of an attribute for a feature. -/
def attributeValue (c : Context W N) (a : Attribute W N) : Outcome (Value W N) :=
  match a.source with
  | .property name => readProperty c.properties name a.type
  | .evaluated _ e => e.evaluate c

/-! ## Uniforms -/

/-- The variables of a frame: the defaults, with overrides coerced to the type of the default
they replace. An override of another type is ignored. -/
def frameVariables (style : CompiledStyle W N) (frame : Frame W N) : Dictionary (Value W N) :=
  frame.bindings.entries.foldl (fun bindings (name, value) =>
    match style.bindings.get? name with
    | none => bindings.insert name value
    | some default =>
      match value.coerce? default.type with
      | some value => bindings.insert name value
      | none => bindings) style.bindings

/-- The context of a frame, which has no feature. -/
def frameContext (style : CompiledStyle W N) (frame : Frame W N) : Context W N :=
  { properties := noProperties
    bindings := style.frameVariables frame
    externals := style.externals
    zoom := frame.zoom
    resolution := frame.resolution
    time := frame.time }

/-- What a source of the uniform block holds in a frame. -/
def uniformValue (style : CompiledStyle W N) (c : Context W N) : UniformSource → Vec4 N
  | .frame .zoom => Vec4.ofScalar (narrow c.zoom)
  | .frame .resolution => Vec4.ofScalar (narrow c.resolution)
  | .frame .time => Vec4.ofScalar (narrow c.time)
  | .frame (.styleVariable name) =>
    match c.bindings.get? name with
    | some value => value.toVec4
    | none => Vec4.zero
  | .property property =>
    match style.evaluate property c with
    | .ok value => value.toVec4
    | .error _ => (property.default : Value W N).toVec4

/-- The vectors of the uniform block in a frame, in the order of the slots. -/
def uniformValues (style : CompiledStyle W N) (frame : Frame W N) : List (Vec4 N) :=
  let context := style.frameContext frame
  style.uniforms.slots.map fun slot => style.uniformValue context slot.source

/-- The slots of the uniform block in a frame. -/
def uniformSlots (style : CompiledStyle W N) (frame : Frame W N) : List (String × Vec4 N) :=
  (style.uniforms.slots.map UniformSlot.name).zip (style.uniformValues frame)

/-- The numbers of the uniform block: the projection, then the vectors. -/
def uniformNumbers (style : CompiledStyle W N) (frame : Frame W N) : List N :=
  frame.projection ++ (style.uniformValues frame).flatMap Vec4.components

/-- A word as bytes, the least significant first. -/
def wordToBytes (code : Nat) : List UInt8 :=
  (List.range wordBytes).map fun i => UInt8.ofNat (code / Nat.pow 256 i % 256)

/-- The bytes of the uniform block in a frame. -/
def uniformBytes (style : CompiledStyle W N) (frame : Frame W N) : List UInt8 :=
  (style.uniformNumbers frame).flatMap fun n => wordToBytes (Scalar.code n)

/-! ## Shader scopes -/

/-- What the vertex stage sees of a feature and a frame: the attributes as their words are
decoded, and the slots of the uniform block. An attribute that has no value is not bound. -/
def shaderScope (style : CompiledStyle W N) (c : Context W N) (frame : Frame W N) :
    ShaderScope N :=
  let attributes := style.plan.attributes.filterMap fun a =>
    (attributeValue c a).toOption.map fun value => (a.unpackedName, a.decode (a.pack value).1)
  let slots := style.uniformSlots frame
  { unpacked := (attributes.lookup ·)
    uniforms := fun name => (slots.lookup name).map .vec4 }

end CompiledStyle

end MapStyle
