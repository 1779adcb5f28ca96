import MapStyle.Json.Pretty
import MapStyle.Style.Compiled
import MapStyle.Tile.Buffers

/-!
# Reports

The texts in which commands show compiled styles and the buffers of tiles.
-/

namespace MapStyle

/-- Some lines as one text. -/
def joinLines (lines : List String) : String := String.join (lines.map (· ++ "\n"))

/-- The text that shows how an attribute is packed. -/
def Quantization.text {W : Type} [Scalar W] : Quantization W → String
  | raw => "Raw"
  | packedColor => "PackedColor"
  | normalized minimum maximum =>
    "Normalized \x7b min: " ++ Scalar.literal minimum ++ ", max: " ++ Scalar.literal maximum ++
      " \x7d"
  | flag => "Flag"
  | stringId => "StringId"

namespace CompiledStyle

variable {W N : Type} [Scalar W] [Scalar N] [Precision W N]

/-- The report on a compiled style. -/
def report (style : CompiledStyle W N) : String :=
  joinLines <|
    [s!"style {Digest.text style.hash}",
      s!"  vertex stride: {style.plan.vertexLayout.strideBytes} bytes"] ++
    style.plan.attributes.map (fun a =>
      s!"  attribute {a.name} ({a.type.name}, {a.quantization.text}) at float {a.offset}") ++
    [s!"  uniform block: {style.uniforms.byteSize} bytes"] ++
    style.properties.map (fun p => s!"  {p.property.name} -> {p.tier.name}") ++
    style.programs.map (fun p => s!"  program {p.kind.name}")

/-- A field of a vertex as JSON. -/
def slotJson (slot : VertexSlot) : Json :=
  .object [("name", .string slot.name), ("location", .number (.integer slot.location)),
    ("components", .number (.integer slot.components)),
    ("offset_bytes", .number (.integer slot.offsetBytes))]

/-- A program as JSON. -/
def programJson (program : ShaderProgram) : Json :=
  .object [("kind", .string program.kind.name), ("vertex_source", .string program.vertexSource),
    ("fragment_source", .string program.fragmentSource)]

/-- The report on a compiled style as JSON. -/
def reportJson (style : CompiledStyle W N) : Json :=
  let layout := style.plan.vertexLayout
  .object [("hash", .number (.integer style.hash.toNat)),
    ("layout", .object [("stride_bytes", .number (.integer layout.strideBytes)),
      ("slots", .array (layout.slots.map slotJson))]),
    ("uniform_bytes", .number (.integer style.uniforms.byteSize)),
    ("programs", .array (style.programs.map programJson))]

end CompiledStyle

/-- The text that shows a text which may be absent. -/
def optionalText : Option String → String
  | some text => "Some(" ++ Text.quoted text ++ ")"
  | none => "None"

/-- The report on the buffers of a tile. -/
def TileBuffers.report {W N : Type} [Scalar W] (b : TileBuffers W N) : String :=
  joinLines <|
    [s!"tile {b.tile.text} (generation {b.generation})",
      s!"  features: {b.featureCount}",
      s!"  vertices: {b.vertexCount} ({b.vertexBytes} bytes)",
      s!"  indices: {b.indices.length}"] ++
    b.drawRanges.map (fun r => s!"  draw {r.kind.name}: indices {r.first}..{r.stop}") ++
    b.symbols.map (fun s =>
      s!"  symbol at ({Scalar.text s.position.x}, {Scalar.text s.position.y}): " ++
        s!"icon={optionalText s.icon} text={optionalText s.text}") ++
    [s!"  warnings: {b.warnings.length}"]

end MapStyle
