import Mathlib.Data.List.Nodup
import MapStyle.Proofs.Shader.Typing
import MapStyle.Shader.Program

/-!
# Statements of the vertex stage

The vertex source of a program, line by line, with what every line binds and which unpacked
attributes it reads. The attributes are unpacked at the head of the stage, each under a name of
its own; where no name of the program's own is among them, every one of them is bound by one
line, and all lines that read it come later.
-/

namespace MapStyle

/-! ## What an expression reads -/

namespace ShaderExpr

variable {N : Type}

mutual

/-- The names of the unpacked attributes that an expression reads. -/
def unpackedNames : ShaderExpr N → List String
  | float _ | bool _ | vec4 _ | uniform _ _ => []
  | unpacked name _ => [name]
  | not operand => unpackedNames operand
  | binary _ left right => unpackedNames left ++ unpackedNames right
  | call _ args => unpackedNamesOfAll args
  | select ifFalse ifTrue condition =>
    unpackedNames ifFalse ++ unpackedNames ifTrue ++ unpackedNames condition
  | makeVec4 parts => unpackedNamesOfAll parts

/-- The names of the unpacked attributes that some expressions read. -/
def unpackedNamesOfAll : List (ShaderExpr N) → List String
  | [] => []
  | e :: rest => unpackedNames e ++ unpackedNamesOfAll rest

end

theorem unpackedNamesOfAll_eq (es : List (ShaderExpr N)) :
    unpackedNamesOfAll es = es.flatMap unpackedNames := by
  induction es with
  | nil => rfl
  | cons e rest ih => rw [unpackedNamesOfAll, List.flatMap_cons, ih]

/-- A well-typed expression reads attributes of the plan only. -/
theorem HasType.exists_attribute {W : Type} {plan : Plan W N} {layout : UniformLayout}
    {s : ShaderExpr N} {type : ShaderType} (typed : s.HasType plan layout type) :
    ∀ name ∈ s.unpackedNames, ∃ a ∈ plan.attributes, a.unpackedName = name := by
  induction typed with
  | float | bool | vec4 | uniform => exact fun _ member => nomatch member
  | unpacked member =>
    intro name read
    exact ⟨_, member, (List.mem_singleton.1 read).symm⟩
  | not _ ofOperand => exact ofOperand
  | binary _ _ _ ofLeft ofRight => exact List.forall_mem_append.2 ⟨ofLeft, ofRight⟩
  | call _ _ _ ofArgs | makeVec4 _ _ ofArgs =>
    intro name read
    rw [unpackedNames, unpackedNamesOfAll_eq] at read
    obtain ⟨arg, inArgs, read⟩ := List.mem_flatMap.1 read
    exact ofArgs arg inArgs name read
  | mix _ _ _ _ ofLow ofHigh ofFactor =>
    intro name read
    simp only [unpackedNames, unpackedNamesOfAll_eq, List.flatMap_cons, List.flatMap_nil,
      List.append_nil, List.mem_append] at read
    rcases read with read | read | read
    · exact ofLow name read
    · exact ofHigh name read
    · exact ofFactor name read
  | select _ _ _ ofFalse ofTrue ofCondition =>
    exact List.forall_mem_append.2 ⟨List.forall_mem_append.2 ⟨ofFalse, ofTrue⟩, ofCondition⟩

end ShaderExpr

/-! ## Statements -/

/-- A line of a vertex source. -/
inductive SourceLine (N : Type) where
  /-- A line that binds no name in the vertex stage and writes no value of a property. -/
  | fixed (text : String)
  /-- A variable that is assigned later. -/
  | declaration (name type : String)
  /-- A name for source that reads no unpacked attribute. -/
  | binding (name source : String)
  /-- A name for the value of an expression. -/
  | bindingOf (name : String) (e : ShaderExpr N)
  /-- The assignment of an output. -/
  | output (name : String) (e : ShaderExpr N)

namespace SourceLine

variable {N : Type}

/-- The name that a line binds. -/
def bound? : SourceLine N → Option String
  | fixed _ | output _ _ => none
  | declaration name _ | binding name _ | bindingOf name _ => some name

/-- The unpacked attributes that a line reads. -/
def reads : SourceLine N → List String
  | fixed _ | declaration _ _ | binding _ _ => []
  | bindingOf _ e | output _ e => e.unpackedNames

/-- The source of a line. -/
def text [Scalar N] : SourceLine N → String
  | fixed text => text
  | declaration name type => s!"    var {name}: {type};"
  | binding name source => s!"    let {name} = {source};"
  | bindingOf name e => s!"    let {name} = {e.wgsl};"
  | output name e => s!"    vs_out.{name} = {e.wgsl};"

/-- The source of some lines. -/
def source [Scalar N] (lines : List (SourceLine N)) : String :=
  String.join (lines.map fun line => line.text ++ "\n")

/-- A name is bound by one line, and no line up to that one reads it. -/
def BoundOnce (lines : List (SourceLine N)) (name : String) : Prop :=
  ∃ before line after, lines = before ++ line :: after ∧ line.bound? = some name ∧
    (∀ other ∈ before ++ after, other.bound? ≠ some name) ∧
    ∀ other ∈ before ++ [line], name ∉ other.reads

end SourceLine

/-! ## Programs -/

namespace ProgramInputs

variable {W N : Type} [Scalar W] [Scalar N] [Precision W N]

/-- The lines ahead of the vertex stage and the line that opens it. -/
def openingLines (inputs : ProgramInputs W N) (kind : ProgramKind) : List String :=
  [s!"// {kind.name} vertex program, {inputs.header}", ""] ++
  inputs.uniforms.sourceLines ++ [""] ++
  inputs.inputLines ++
  kind.varyingLines "VertexOutput" ["    @builtin(position) clip_position: vec4<f32>,"] ++
  (if inputs.plan.needsColorUnpack then unpackColorLines else []) ++
  ["@vertex", "fn vs_main(vertex_in: VertexInput) -> VertexOutput \x7b"]

/-- The line that unpacks an attribute. -/
def unpacking (a : Attribute W N) : SourceLine N := .binding a.unpackedName a.unpackSource

/-- The lines of the vertex stage that differ between the kinds. -/
def bodyStatements (inputs : ProgramInputs W N) : ProgramKind → List (SourceLine N)
  | .fill => [
    .binding "world_position" "vertex_in.position",
    .output "v_color" (inputs.value .fillColor)]
  | .stroke => [
    .bindingOf "line_width" (inputs.value .strokeWidth),
    .binding "world_position" ("vertex_in.position + vertex_in.extrude * " ++
      "(line_width * 0.5 * uniforms.u_resolution.x)"),
    .output "v_color" (inputs.value .strokeColor)]
  | .symbol => [
    .bindingOf "circle_radius" (inputs.value .circleRadius),
    .bindingOf "circle_stroke_width" (inputs.value .circleStrokeWidth),
    .binding "outer_radius" "circle_radius + circle_stroke_width * 0.5",
    .binding "world_position" ("vertex_in.position + vertex_in.extrude * " ++
      "(outer_radius * uniforms.u_resolution.x)"),
    .fixed "    vs_out.v_extrude = vertex_in.extrude * outer_radius;",
    .fixed "    vs_out.v_radius = circle_radius;",
    .fixed "    vs_out.v_stroke_width = circle_stroke_width;",
    .output "v_fill" (inputs.value .circleFillColor),
    .output "v_stroke" (inputs.value .circleStrokeColor),
    .output "v_opacity" (inputs.value .circleOpacity)]

/-- The lines of the vertex stage after the attributes are unpacked. -/
def stageStatements (inputs : ProgramInputs W N) (kind : ProgramKind) : List (SourceLine N) :=
  .declaration "vs_out" "VertexOutput" ::
    .output "v_filter" (.select (.float Scalar.zero) (.float Scalar.one) (inputs.value .filter)) ::
    inputs.bodyStatements kind ++
  [.fixed "    vs_out.clip_position = uniforms.projection * vec4<f32>(world_position, 0.0, 1.0);",
    .fixed "    return vs_out;", .fixed "\x7d"]

/-- The vertex source of a program. -/
def vertexStatements (inputs : ProgramInputs W N) (kind : ProgramKind) : List (SourceLine N) :=
  (inputs.openingLines kind).map .fixed ++ inputs.plan.attributes.map unpacking ++
    inputs.stageStatements kind

/-- The names that the vertex stage binds for itself. -/
def ownNames : List String :=
  ["vs_out", "world_position", "line_width", "circle_radius", "circle_stroke_width", "outer_radius"]

variable {inputs : ProgramInputs W N}

/-- The statements are written line by line as the source has them. -/
theorem map_text_vertexStatements (inputs : ProgramInputs W N) (kind : ProgramKind) :
    (inputs.vertexStatements kind).map SourceLine.text = inputs.vertexLines kind := by
  have opening : (inputs.openingLines kind).map (SourceLine.text ∘ (SourceLine.fixed (N := N))) =
      inputs.openingLines kind := List.map_id _
  have unpacked : inputs.plan.attributes.map (SourceLine.text ∘ unpacking) = inputs.unpackLines :=
    rfl
  have body : (inputs.bodyStatements kind).map SourceLine.text = inputs.bodyLines kind := by
    cases kind <;> rfl
  rw [vertexStatements, stageStatements, List.map_append, List.map_append, List.map_map,
    List.map_map, opening, unpacked, List.cons_append, List.cons_append, List.map_cons,
    List.map_cons, List.map_append, body, vertexLines, openingLines]
  simp only [List.append_assoc, List.cons_append, List.nil_append]
  rfl

/-- The vertex source of a program is that of its statements. -/
theorem vertexSource_eq (inputs : ProgramInputs W N) (kind : ProgramKind) :
    (inputs.program kind).vertexSource = SourceLine.source (inputs.vertexStatements kind) := by
  unfold program SourceLine.source
  simp only
  rw [← map_text_vertexStatements, List.map_map]
  rfl

/-- After the attributes are unpacked, only names of the program's own are bound. -/
theorem mem_ownNames_of_bound? {kind : ProgramKind} {line : SourceLine N}
    (member : line ∈ inputs.stageStatements kind) {name : String}
    (bound : line.bound? = some name) : name ∈ ownNames := by
  have own : ∀ line ∈ inputs.stageStatements kind, ∀ name, line.bound? = some name →
      name ∈ ownNames := by
    cases kind <;>
      simp [stageStatements, bodyStatements, SourceLine.bound?, ownNames]
  exact own line member name bound

/-- Every attribute is unpacked by one line, ahead of all lines that read it, when the names of
the attributes differ from one another and from those of the program's own. -/
theorem boundOnce_unpacked
    (distinct : (inputs.plan.attributes.map Attribute.unpackedName).Nodup)
    (apart : ∀ a ∈ inputs.plan.attributes, a.unpackedName ∉ ownNames) (kind : ProgramKind)
    {a : Attribute W N} (member : a ∈ inputs.plan.attributes) :
    SourceLine.BoundOnce (inputs.vertexStatements kind) a.unpackedName := by
  obtain ⟨earlier, later, split⟩ := List.append_of_mem member
  refine ⟨(inputs.openingLines kind).map .fixed ++ earlier.map unpacking, unpacking a,
    later.map unpacking ++ inputs.stageStatements kind, ?_, rfl, ?_, ?_⟩
  · rw [vertexStatements, split, List.map_append, List.map_cons]
    simp only [List.append_assoc, List.cons_append]
  · have others : ∀ other ∈ earlier ++ later, other.unpackedName ≠ a.unpackedName := by
      rw [split, List.map_append, List.map_cons] at distinct
      have outside := (List.nodup_cons.1 (List.nodup_middle.1 distinct)).1
      intro other inOthers same
      rw [← List.map_append] at outside
      exact outside (same ▸ List.mem_map_of_mem inOthers)
    have unpacked (other : Attribute W N) (inOthers : other ∈ earlier ++ later) :
        (unpacking other : SourceLine N).bound? ≠ some a.unpackedName :=
      fun bound => others other inOthers (Option.some.inj bound)
    intro line inLines bound
    simp only [List.mem_append, List.mem_map] at inLines
    rcases inLines with (⟨text, -, rfl⟩ | ⟨other, inEarlier, rfl⟩) | ⟨other, inLater, rfl⟩ | stage
    · cases bound
    · exact unpacked other (List.mem_append_left _ inEarlier) bound
    · exact unpacked other (List.mem_append_right _ inLater) bound
    · exact apart a member (mem_ownNames_of_bound? stage bound)
  · intro line inLines
    simp only [List.mem_append, List.mem_map, List.mem_singleton] at inLines
    rcases inLines with (⟨text, -, rfl⟩ | ⟨other, -, rfl⟩) | rfl
    · exact List.not_mem_nil
    · exact List.not_mem_nil
    · exact List.not_mem_nil

/-- The lines read what the values of the properties read. -/
theorem exists_value_of_reads {kind : ProgramKind} {line : SourceLine N}
    (member : line ∈ inputs.vertexStatements kind) {name : String} (read : name ∈ line.reads) :
    ∃ property, name ∈ (inputs.value property).unpackedNames := by
  rw [vertexStatements, List.mem_append, List.mem_append] at member
  rcases member with (opening | unpacked) | stage
  · obtain ⟨text, -, rfl⟩ := List.mem_map.1 opening
    cases read
  · obtain ⟨a, -, rfl⟩ := List.mem_map.1 unpacked
    cases read
  · have values (property : StyleProperty) : ∀ name ∈ (inputs.value property).unpackedNames,
        ∃ other, name ∈ (inputs.value other).unpackedNames := fun name read => ⟨property, read⟩
    have silent {line : SourceLine N} (none : line.reads = []) : ∀ name ∈ line.reads,
        ∃ property, name ∈ (inputs.value property).unpackedNames := by
      rw [none]
      exact fun _ read => nomatch read
    have body : ∀ line ∈ inputs.bodyStatements kind, ∀ name ∈ line.reads,
        ∃ property, name ∈ (inputs.value property).unpackedNames := by
      cases kind <;> simp only [bodyStatements, List.forall_mem_cons]
      · exact ⟨silent rfl, values .fillColor, fun _ last => nomatch last⟩
      · exact ⟨values .strokeWidth, silent rfl, values .strokeColor, fun _ last => nomatch last⟩
      · exact ⟨values .circleRadius, values .circleStrokeWidth, silent rfl, silent rfl, silent rfl,
          silent rfl, silent rfl, values .circleFillColor, values .circleStrokeColor,
          values .circleOpacity, fun _ last => nomatch last⟩
    simp only [stageStatements, List.cons_append, List.mem_cons, List.mem_append, List.not_mem_nil,
      or_false] at stage
    rcases stage with rfl | rfl | inBody | rfl | rfl | rfl
    · exact silent rfl name read
    · exact values .filter name read
    · exact body line inBody name read
    · exact silent rfl name read
    · exact silent rfl name read
    · exact silent rfl name read

end ProgramInputs

end MapStyle
