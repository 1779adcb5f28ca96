import MapStyle.Expr.Basic
import MapStyle.Packing.Identifier
import MapStyle.Shader.Expr
import MapStyle.Style.Property

/-!
# Uniform layouts

The uniform block of a style is a projection matrix and then one vector for every
source that its programs read. The frame inputs that every program may read come
first. A source is declared once; declaring it again gives the same name.
-/

namespace MapStyle

/-- What a uniform is filled from. -/
inductive UniformSource where
  | frame (input : FrameInput)
  /-- A style property that does not depend on the feature. -/
  | property (property : StyleProperty)
deriving DecidableEq, Repr

/-- A declared uniform. -/
structure UniformSlot where
  name : String
  type : ShaderType
  source : UniformSource
deriving DecidableEq, Repr

/-- The declared uniforms, in order. -/
structure UniformLayout where
  slots : List UniformSlot
deriving DecidableEq, Repr

namespace UniformLayout

/-- Declare a slot unless its source is declared, and tell the name of the source. A name that
is taken gets a numeric suffix. -/
def declare (layout : UniformLayout) (slot : UniformSlot) : UniformLayout × String :=
  match layout.slots.find? (·.source = slot.source) with
  | some declared => (layout, declared.name)
  | none =>
    let name := Identifier.firstFree (layout.slots.map UniformSlot.name) slot.name
    (⟨layout.slots ++ [{ slot with name }]⟩, name)

/-- The name a frame input asks for. -/
def inputName : FrameInput → String
  | .zoom => "u_zoom"
  | .resolution => "u_resolution"
  | .time => "u_time"
  | .styleVariable name => "u_var_" ++ Identifier.sanitize name

/-- Declare a frame input. -/
def frameInput (layout : UniformLayout) (input : FrameInput) (type : ShaderType) :
    UniformLayout × String :=
  layout.declare ⟨inputName input, type, .frame input⟩

/-- Declare a style property. -/
def property (layout : UniformLayout) (property : StyleProperty) : UniformLayout × String :=
  layout.declare ⟨"u_" ++ property.identifier, ShaderType.of property.type, .property property⟩

/-- The layout every style starts from: zoom, resolution and time. -/
def initial : UniformLayout :=
  [FrameInput.zoom, .resolution, .time].foldl
    (fun layout input => (layout.frameInput input .float).1) ⟨[]⟩

/-- The bytes of the projection matrix. -/
def projectionBytes : Nat := 64

/-- The bytes of one vector. -/
def slotBytes : Nat := 16

def byteSize (layout : UniformLayout) : Nat :=
  projectionBytes + slotBytes * layout.slots.length

/-- The declaration of the block in shader sources, line by line. -/
def sourceLines (layout : UniformLayout) : List String :=
  ["struct Uniforms \x7b", "    projection: mat4x4<f32>,"] ++
    layout.slots.map (fun slot => "    " ++ slot.name ++ ": vec4<f32>,") ++
    ["\x7d", "", "@group(0) @binding(0)", "var<uniform> uniforms: Uniforms;"]

/-- The declaration of the block in shader sources. -/
def source (layout : UniformLayout) : String :=
  String.join (layout.sourceLines.map (· ++ "\n"))

end UniformLayout

end MapStyle
