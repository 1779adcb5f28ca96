import MapStyle.Proofs.Shader.Statements

/-!
# Names of the vertex template

What the vertex source of every program declares, whatever the style: its structures with their
fields, its functions with their parameters, and what the functions bind. The names are read off
the lines of the source, so none is left out; only the lines that a style fills in, for its
uniforms and attributes, declare others.
-/

namespace MapStyle

/-! ## Declarations -/

namespace SourceLine

/-- The words of some source, and its other characters one by one. -/
def tokens : List Char → List (List Char)
  | [] => []
  | c :: rest =>
    match tokens rest with
    | (d :: word) :: others =>
      if Identifier.isWord c && Identifier.isWord d then (c :: d :: word) :: others
      else [c] :: (d :: word) :: others
    | others => [c] :: others

/-- The words that a name is declared behind. -/
def keywords : List String := ["let", "var", "fn", "struct"]

/-- The names that are declared in some source: those ahead of a colon, which are fields,
parameters and variables with their types, and those behind a keyword. -/
def declaredIn : List (List Char) → List String
  | [] => []
  | word :: rest =>
    let declared := match rest with
      | [':'] :: _ => [String.ofList word]
      | [' '] :: name :: _ => if String.ofList word ∈ keywords then [String.ofList name] else []
      | _ => []
    declared ++ declaredIn rest

/-- The names that a line of text declares. A comment declares none. -/
def declaredBy (text : String) : List String :=
  match text.toList with
  | '/' :: '/' :: _ => []
  | chars => declaredIn (tokens chars)

/-- The names that a line declares. -/
def declared {N : Type} : SourceLine N → List String
  | fixed text => declaredBy text
  | declaration name _ | binding name _ | bindingOf name _ => [name]
  | output _ _ => []

theorem declaredBy_comment (text : String) : declaredBy ("// " ++ text) = [] := by
  rw [declaredBy, String.toList_append]
  rfl

theorem declared_of_bound? {N : Type} {line : SourceLine N} {name : String}
    (bound : line.bound? = some name) : line.declared = [name] := by
  cases line <;> cases bound <;> rfl

end SourceLine

/-! ## The template -/

namespace ProgramInputs

/-- The names that the vertex source of some program declares, whatever the style. -/
def templateNames : List String :=
  ["Uniforms", "projection", "uniforms"] ++ ["VertexInput", "position", "extrude"] ++
  ["VertexOutput", "clip_position"] ++
  ProgramKind.all.flatMap (fun kind => kind.varyings.map Varying.name) ++
  ["unpack_color", "packed", "rg", "ba"] ++ ["vs_main", "vertex_in"] ++ ownNames

/-- A line declares names of the template only. -/
def OfTemplate (text : String) : Prop :=
  ∀ name ∈ SourceLine.declaredBy text, name ∈ templateNames

instance (text : String) : Decidable (OfTemplate text) :=
  inferInstanceAs (Decidable (∀ name ∈ SourceLine.declaredBy text, name ∈ templateNames))

variable {W N : Type}

/-- The declaration of a uniform. -/
def slotLine (slot : UniformSlot) : String := "    " ++ slot.name ++ ": vec4<f32>,"

/-- The declaration of the field of an attribute. -/
def fieldLine (a : Attribute W N) (index : Nat) : String :=
  s!"    @location({index + 2}) {a.name}: {a.inputType},"

/-! ## Ahead of the vertex stage -/

/-- The first line is a comment, whatever it says about the style. -/
theorem ofTemplate_header (kind : ProgramKind) (header : String) :
    OfTemplate s!"// {kind.name} vertex program, {header}" := by
  have comment : s!"// {kind.name} vertex program, {header}" =
      "// " ++ (kind.name ++ (" vertex program, " ++ header)) := by
    rw [← String.append_assoc, ← String.append_assoc]
    rfl
  intro name declares
  rw [comment, SourceLine.declaredBy_comment] at declares
  cases declares

theorem ofTemplate_varyingLines (kind : ProgramKind) :
    ∀ text ∈ kind.varyingLines "VertexOutput"
      ["    @builtin(position) clip_position: vec4<f32>,"], OfTemplate text := by
  cases kind <;> decide +kernel

theorem ofTemplate_unpackColorLines : ∀ text ∈ unpackColorLines, OfTemplate text := by
  decide +kernel

variable [Scalar W] [Scalar N] [Precision W N]

/-- The lines that a style fills in: one for each uniform, and two for each attribute, its field
and what unpacks it. -/
def filledLines (inputs : ProgramInputs W N) : List (SourceLine N) :=
  inputs.uniforms.slots.map (fun slot => .fixed (slotLine slot)) ++
  inputs.plan.attributes.zipIdx.map (fun entry => .fixed (fieldLine entry.1 entry.2)) ++
  inputs.plan.attributes.map unpacking

variable {inputs : ProgramInputs W N} {kind : ProgramKind}

omit [Scalar W] in
/-- Ahead of the vertex stage, the lines that no style fills in declare names of the template. -/
theorem ofTemplate_openingLines (inputs : ProgramInputs W N) (kind : ProgramKind) :
    ∀ text ∈ inputs.openingLines kind, .fixed text ∈ inputs.filledLines ∨ OfTemplate text := by
  have template {lines : List String} (all : ∀ text ∈ lines, OfTemplate text) :
      ∀ text ∈ lines, .fixed text ∈ inputs.filledLines ∨ OfTemplate text :=
    fun text member => .inr (all text member)
  have slots : ∀ text ∈ inputs.uniforms.slots.map slotLine,
      .fixed text ∈ inputs.filledLines ∨ OfTemplate text :=
    List.forall_mem_map.2 fun slot member => .inl (List.mem_append_left _
      (List.mem_append_left _ (List.mem_map_of_mem member)))
  have fields : ∀ text ∈ inputs.plan.attributes.zipIdx.map (fun entry => fieldLine entry.1 entry.2),
      .fixed text ∈ inputs.filledLines ∨ OfTemplate text :=
    List.forall_mem_map.2 fun entry member => .inl (List.mem_append_left _
      (List.mem_append_right _ (List.mem_map_of_mem member)))
  have unpackColor : ∀ text ∈ (if inputs.plan.needsColorUnpack then unpackColorLines else []),
      OfTemplate text := by
    split
    next => exact ofTemplate_unpackColorLines
    next => exact fun _ member => nomatch member
  unfold openingLines UniformLayout.sourceLines inputLines
  simp only [List.forall_mem_append]
  refine ⟨⟨⟨⟨⟨⟨?header, ⟨?uniforms, slots⟩, ?block⟩, ?blank⟩, ⟨?input, fields⟩, ?brace⟩,
    template (ofTemplate_varyingLines kind)⟩, template unpackColor⟩, ?stage⟩
  case header =>
    exact template
      (List.forall_mem_cons.2 ⟨ofTemplate_header kind inputs.header, by decide +kernel⟩)
  -- The other lines are the same in every program.
  all_goals exact template (by decide +kernel)

/-! ## The whole source -/

/-- In the vertex stage, a line that binds no name declares none. -/
theorem declared_stageStatements :
    ∀ line ∈ inputs.stageStatements kind, line.bound? = none → line.declared = [] := by
  cases kind <;> simp only [stageStatements, bodyStatements, List.cons_append, List.nil_append,
    List.mem_cons, List.not_mem_nil, or_false, forall_eq_or_imp, forall_eq, SourceLine.bound?,
    SourceLine.declared, reduceCtorEq, false_implies, forall_const, true_and]
  all_goals decide +kernel

/-- The lines of a vertex source that no style fills in declare names of the template. -/
theorem declared_mem_templateNames {line : SourceLine N}
    (member : line ∈ inputs.vertexStatements kind) :
    line ∈ inputs.filledLines ∨ ∀ name ∈ line.declared, name ∈ templateNames := by
  rw [vertexStatements, List.mem_append, List.mem_append] at member
  rcases member with (opening | unpacked) | stage
  · obtain ⟨text, inOpening, rfl⟩ := List.mem_map.1 opening
    exact ofTemplate_openingLines inputs kind text inOpening
  · exact .inl (List.mem_append_right _ unpacked)
  · refine .inr fun name declares => ?_
    cases bound : line.bound? with
    | none =>
      rw [declared_stageStatements line stage bound] at declares
      cases declares
    | some own =>
      rw [SourceLine.declared_of_bound? bound, List.mem_singleton] at declares
      exact List.mem_append_right _ (declares ▸ mem_ownNames_of_bound? stage bound)

end ProgramInputs

end MapStyle
