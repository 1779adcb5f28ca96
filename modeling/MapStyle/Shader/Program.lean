import MapStyle.Packing.Plan
import MapStyle.Style.Lowering
import MapStyle.Uniform.Layout

/-!
# Shader programs

The vertex and fragment sources of one kind of geometry. The sources are fixed but
for the uniform block, the vertex input and the expressions of the style's
properties; equal styles get the same sources, byte for byte.
-/

namespace MapStyle

/-- The sources for one kind of geometry. -/
structure ShaderProgram where
  kind : ProgramKind
  vertexSource : String
  fragmentSource : String
deriving DecidableEq, Repr

/-- What the programs of one style share. -/
structure ProgramInputs (W N : Type) where
  /-- What the first line of every source says about the style. -/
  header : String
  plan : Plan W N
  uniforms : UniformLayout
  /-- The values of the properties in the vertex stage. -/
  values : List (StyleProperty × ShaderExpr N)

/-- A value that the vertex stage hands to the fragment stage. -/
structure Varying where
  name : String
  type : String
  /-- Whether all fragments get the value of one vertex. -/
  flat : Bool

namespace Varying

/-- The declaration of a varying at a location. -/
def line (location : Nat) (v : Varying) : String :=
  let interpolation := if v.flat then " @interpolate(flat)" else ""
  s!"    @location({location}){interpolation} {v.name}: {v.type},"

end Varying

namespace ProgramKind

/-- The varyings of a program, in the order of their locations. -/
def varyings (kind : ProgramKind) : List Varying :=
  ⟨"v_filter", "f32", true⟩ :: match kind with
    | fill | stroke => [⟨"v_color", "vec4<f32>", true⟩]
    | symbol => [
      ⟨"v_extrude", "vec2<f32>", false⟩,
      ⟨"v_radius", "f32", true⟩,
      ⟨"v_stroke_width", "f32", true⟩,
      ⟨"v_fill", "vec4<f32>", true⟩,
      ⟨"v_stroke", "vec4<f32>", true⟩,
      ⟨"v_opacity", "f32", true⟩]

/-- The structure of the varyings. -/
def varyingLines (kind : ProgramKind) (name : String) (position : List String) : List String :=
  ["struct " ++ name ++ " \x7b"] ++ position ++
    kind.varyings.zipIdx.map (fun (v, location) => v.line location) ++ ["\x7d", ""]

end ProgramKind

namespace ProgramInputs

variable {W N : Type} [Scalar W] [Scalar N] [Precision W N]

/-- The shader expression of a property, which is its default when the style leaves it out. -/
def value (inputs : ProgramInputs W N) (property : StyleProperty) : ShaderExpr N :=
  (inputs.values.lookup property).getD
    ((ShaderExpr.ofValue? (property.default : Value W N)).getD (.float Scalar.zero))

/-- The source of a property's value. -/
def valueSource (inputs : ProgramInputs W N) (property : StyleProperty) : String :=
  (inputs.value property).wgsl

/-- The source of the filter as a number. -/
def filterSource (inputs : ProgramInputs W N) : String :=
  (ShaderExpr.select (.float Scalar.zero) (.float Scalar.one) (inputs.value .filter)).wgsl

/-- The function that unpacks a color. -/
def unpackColorLines : List String := [
  "fn unpack_color(packed: vec2<f32>) -> vec4<f32> \x7b",
  "    let rg = floor(packed.x / 256.0);",
  "    let ba = floor(packed.y / 256.0);",
  "    return vec4<f32>(rg, packed.x - rg * 256.0, ba, packed.y - ba * 256.0) / 255.0;",
  "\x7d",
  ""]

/-- The structure of the vertex input. -/
def inputLines (inputs : ProgramInputs W N) : List String :=
  ["struct VertexInput \x7b", "    @location(0) position: vec2<f32>,",
      "    @location(1) extrude: vec2<f32>,"] ++
    inputs.plan.attributes.zipIdx.map (fun (a, index) =>
      s!"    @location({index + 2}) {a.name}: {a.inputType},") ++
    ["\x7d", ""]

/-- The statements that unpack the attributes, ahead of every use. -/
def unpackLines (inputs : ProgramInputs W N) : List String :=
  inputs.plan.attributes.map fun a => s!"    let {a.unpackedName} = {a.unpackSource};"

/-- The statements of the vertex stage that differ between the kinds. -/
def bodyLines (inputs : ProgramInputs W N) : ProgramKind → List String
  | .fill => [
    "    let world_position = vertex_in.position;",
    s!"    vs_out.v_color = {inputs.valueSource .fillColor};"]
  | .stroke => [
    s!"    let line_width = {inputs.valueSource .strokeWidth};",
    "    let world_position = vertex_in.position + vertex_in.extrude * " ++
      "(line_width * 0.5 * uniforms.u_resolution.x);",
    s!"    vs_out.v_color = {inputs.valueSource .strokeColor};"]
  | .symbol => [
    s!"    let circle_radius = {inputs.valueSource .circleRadius};",
    s!"    let circle_stroke_width = {inputs.valueSource .circleStrokeWidth};",
    "    let outer_radius = circle_radius + circle_stroke_width * 0.5;",
    "    let world_position = vertex_in.position + vertex_in.extrude * " ++
      "(outer_radius * uniforms.u_resolution.x);",
    "    vs_out.v_extrude = vertex_in.extrude * outer_radius;",
    "    vs_out.v_radius = circle_radius;",
    "    vs_out.v_stroke_width = circle_stroke_width;",
    s!"    vs_out.v_fill = {inputs.valueSource .circleFillColor};",
    s!"    vs_out.v_stroke = {inputs.valueSource .circleStrokeColor};",
    s!"    vs_out.v_opacity = {inputs.valueSource .circleOpacity};"]

/-- The vertex source of a program, line by line. -/
def vertexLines (inputs : ProgramInputs W N) (kind : ProgramKind) : List String :=
  [s!"// {kind.name} vertex program, {inputs.header}", ""] ++
  inputs.uniforms.sourceLines ++ [""] ++
  inputs.inputLines ++
  kind.varyingLines "VertexOutput" ["    @builtin(position) clip_position: vec4<f32>,"] ++
  (if inputs.plan.needsColorUnpack then unpackColorLines else []) ++
  ["@vertex", "fn vs_main(vertex_in: VertexInput) -> VertexOutput \x7b"] ++
  inputs.unpackLines ++
  ["    var vs_out: VertexOutput;", s!"    vs_out.v_filter = {inputs.filterSource};"] ++
  inputs.bodyLines kind ++
  ["    vs_out.clip_position = uniforms.projection * vec4<f32>(world_position, 0.0, 1.0);",
    "    return vs_out;", "\x7d"]

/-- The statements of the fragment stage that differ between the kinds. -/
def shadeLines : ProgramKind → List String
  | .fill | .stroke => ["    return frag_in.v_color;"]
  | .symbol => [
    "    let distance_px = length(frag_in.v_extrude);",
    "    let half_stroke = frag_in.v_stroke_width * 0.5;",
    "    if (distance_px > frag_in.v_radius + half_stroke) \x7b",
    "        discard;",
    "    \x7d",
    "    var color = frag_in.v_fill;",
    "    if (frag_in.v_stroke_width > 0.0 && distance_px > frag_in.v_radius - half_stroke) \x7b",
    "        color = frag_in.v_stroke;",
    "    \x7d",
    "    return vec4<f32>(color.rgb, color.a * frag_in.v_opacity);"]

/-- The fragment source of a program, line by line. -/
def fragmentLines (inputs : ProgramInputs W N) (kind : ProgramKind) : List String :=
  [s!"// {kind.name} fragment program, {inputs.header}", ""] ++
  kind.varyingLines "FragmentInput" [] ++
  ["@fragment", "fn fs_main(frag_in: FragmentInput) -> @location(0) vec4<f32> \x7b",
    "    if (frag_in.v_filter < 0.5) \x7b", "        discard;", "    \x7d"] ++
  shadeLines kind ++ ["\x7d"]

/-- The program of a kind. -/
def program (inputs : ProgramInputs W N) (kind : ProgramKind) : ShaderProgram :=
  let text (lines : List String) : String := String.join (lines.map (· ++ "\n"))
  ⟨kind, text (inputs.vertexLines kind), text (inputs.fragmentLines kind)⟩

end ProgramInputs

end MapStyle
