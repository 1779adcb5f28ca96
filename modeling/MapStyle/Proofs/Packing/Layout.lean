import Mathlib.Data.List.Forall2
import MapStyle.Proofs.Packing.Plan
import MapStyle.Proofs.Tile.Features

/-!
# The layout of a vertex

A vertex is described in several places: the plan counts words, the layout of the buffer counts
bytes, the device is told formats, the shader declares a structure, and packing writes words one
after another. All of them list the same fields. Each field begins where the one before it ends,
so what is packed for a field is what is read of it.
-/

namespace MapStyle

/-! ## Fields -/

namespace VertexFormat

/-- The number of words that a format reads. -/
def components : VertexFormat → Nat
  | float32 => 1
  | float32x2 => 2
  | float32x3 => 3
  | float32x4 => 4

/-- The type of so many numbers in the shader. -/
def shaderType : VertexFormat → String
  | float32 => "f32"
  | float32x2 => "vec2<f32>"
  | float32x3 => "vec3<f32>"
  | float32x4 => "vec4<f32>"

theorem components_ofComponents {count : Nat} (known : count = 1 ∨ count = 2) :
    (ofComponents count).components = count := by
  rcases known with rfl | rfl <;> rfl

end VertexFormat

namespace VertexSlot

def sizeBytes (slot : VertexSlot) : Nat := slot.components * wordBytes

/-- The declaration of a field in the vertex input of a shader. -/
def declaration (slot : VertexSlot) : String :=
  let type := (VertexFormat.ofComponents slot.components).shaderType
  s!"    @location({slot.location}) {slot.name}: {type},"

/-- The bytes of a field in a vertex. -/
def read (slot : VertexSlot) (vertex : List UInt8) : List UInt8 :=
  (vertex.drop slot.offsetBytes).take slot.sizeBytes

/-- Fields follow one another from a first byte up to the byte after the last. -/
def Consecutive (start : Nat) : List VertexSlot → Nat → Prop
  | [], stop => start = stop
  | slot :: rest, stop => slot.offsetBytes = start ∧ Consecutive (start + slot.sizeBytes) rest stop

/-- Where fields follow one another, each reads what was written for it. -/
theorem Consecutive.read {start stop : Nat} {slots : List VertexSlot} {fields : List (List UInt8)}
    (consecutive : Consecutive start slots stop)
    (sized : List.Forall₂ (fun slot field => field.length = slot.sizeBytes) slots fields)
    (before : List UInt8) (reached : before.length = start) :
    (before ++ fields.flatten).length = stop ∧
      List.Forall₂ (fun slot field => slot.read (before ++ fields.flatten) = field) slots
        fields := by
  induction sized generalizing start before with
  | nil =>
    rw [List.flatten_nil, List.append_nil]
    exact ⟨reached.trans consecutive, .nil⟩
  | @cons slot field slots fields size sized ih =>
    obtain ⟨offset, later⟩ := consecutive
    have whole : before ++ (field :: fields).flatten = (before ++ field) ++ fields.flatten := by
      rw [List.flatten_cons, List.append_assoc]
    have passed : (before ++ field).length = start + slot.sizeBytes := by
      rw [List.length_append, reached, size]
    obtain ⟨ends, reads⟩ := ih later (before ++ field) passed
    rw [whole]
    refine ⟨ends, .cons ?_ reads⟩
    rw [VertexSlot.read, offset, ← reached, ← size, List.append_assoc, List.drop_left,
      List.take_left]

end VertexSlot

/-- The fields of a layout have the locations from zero on, and fill a vertex one after another
with one or two words each. -/
structure VertexLayout.Tiles (layout : VertexLayout) : Prop where
  locations : layout.slots.map VertexSlot.location = List.range layout.slots.length
  consecutive : VertexSlot.Consecutive 0 layout.slots layout.strideBytes
  components : ∀ slot ∈ layout.slots, slot.components = 1 ∨ slot.components = 2

/-- The structure of the vertex input that a layout calls for. -/
def VertexLayout.inputLines (layout : VertexLayout) : List String :=
  "struct VertexInput \x7b" :: layout.slots.map VertexSlot.declaration ++ ["\x7d"]

variable {W N : Type}

/-! ## Plans -/

namespace Attribute

/-- The field of the vertex buffer that an attribute fills. -/
def slot (index : Nat) (a : Attribute W N) : VertexSlot :=
  ⟨a.name, index + 2, a.components, (baseWords + a.offset) * wordBytes⟩

theorem components_eq (a : Attribute W N) : a.components = 1 ∨ a.components = 2 := by
  unfold components Quantization.components
  split
  · exact .inr rfl
  · exact .inl rfl

/-- The shader declares the field of an attribute with as many numbers as it has words. -/
theorem inputType_eq (a : Attribute W N) :
    a.inputType = (VertexFormat.ofComponents a.components).shaderType := by
  unfold inputType components
  cases a.quantization <;> rfl

end Attribute

namespace Plan

theorem slots_vertexLayout (plan : Plan W N) : plan.vertexLayout.slots =
    ⟨"position", 0, 2, 0⟩ :: ⟨"extrude", 1, 2, 2 * wordBytes⟩ ::
      plan.attributes.zipIdx.map fun entry => entry.1.slot entry.2 := rfl

/-- What is said of the fields of the attributes in their order. -/
theorem map_slots {α : Type} {ofSlot : VertexSlot → α} {ofAttribute : Attribute W N → α}
    (plan : Plan W N) (same : ∀ index (a : Attribute W N), ofSlot (a.slot index) = ofAttribute a) :
    plan.vertexLayout.slots.map ofSlot =
      ofSlot ⟨"position", 0, 2, 0⟩ :: ofSlot ⟨"extrude", 1, 2, 2 * wordBytes⟩ ::
        plan.attributes.map ofAttribute := by
  have attributes : (fun entry : Attribute W N × Nat => ofSlot (entry.1.slot entry.2)) =
      ofAttribute ∘ Prod.fst := funext fun entry => same entry.2 entry.1
  rw [slots_vertexLayout, List.map_cons, List.map_cons, List.map_map]
  refine congrArg _ (congrArg _ ?_)
  rw [Function.comp_def, attributes, ← List.map_map, List.zipIdx_map_fst]

theorem forall₂_carries_place (offset : Nat) (taken : List String)
    (requests : List (AttributeRequest W N)) :
    List.Forall₂ Attribute.Carries (place offset taken requests) requests := by
  induction requests generalizing offset taken with
  | nil => exact .nil
  | cons request rest ih => exact .cons ⟨rfl, rfl, rfl⟩ (ih _ _)

/-- Every attribute is placed behind the words of those before it. -/
theorem consecutive_place (offset index : Nat) (taken : List String)
    (requests : List (AttributeRequest W N)) :
    VertexSlot.Consecutive ((baseWords + offset) * wordBytes)
      (((place offset taken requests).zipIdx index).map fun entry => entry.1.slot entry.2)
      ((baseWords + offset + stride ⟨place offset taken requests⟩) * wordBytes) := by
  induction requests generalizing offset index taken with
  | nil => rfl
  | cons request rest ih =>
    refine ⟨rfl, ?_⟩
    have later := ih (offset + (Quantization.of request.type request.bounds).components) (index + 1)
      (Identifier.firstFree taken (Identifier.sanitize request.name) :: taken)
    rw [← Nat.add_assoc baseWords, Nat.add_mul] at later
    rw [Nat.add_assoc] at later
    exact later

variable [Scalar W] [Scalar N]

/-- Requests are kept as list items are that do not repeat an earlier one. -/
theorem distinct_eq_eraseDupsBy (requests : List (AttributeRequest W N)) :
    distinct requests =
      requests.eraseDupsBy fun later earlier => earlier.source == later.source := by
  have fold (kept : List (AttributeRequest W N)) :
      requests.foldl (fun kept request =>
        if kept.any (·.source == request.source) then kept else kept ++ [request]) kept =
      List.eraseDupsBy.loop (fun later earlier => earlier.source == later.source) requests
        kept.reverse := by
    induction requests generalizing kept with
    | nil => rw [List.foldl_nil, List.eraseDupsBy.loop, List.reverse_reverse]
    | cons request rest ih =>
      rw [List.foldl_cons, List.eraseDupsBy.loop, List.any_reverse]
      split
      next known => rw [known, ih]
      next new => rw [Bool.eq_false_iff.2 new, ih, List.reverse_append]; rfl
  exact fold []

theorem tiles_vertexLayout (requests : List (AttributeRequest W N)) :
    (ofRequests requests).vertexLayout.Tiles where
  locations := by
    rw [slots_vertexLayout, List.map_cons, List.map_cons, List.map_map, List.length_cons,
      List.length_cons, List.length_map, List.length_zipIdx, List.range_eq_range',
      List.range'_succ, List.range'_succ]
    have shifted : (VertexSlot.location ∘ fun entry : Attribute W N × Nat => entry.1.slot entry.2) =
        (2 + ·) ∘ Prod.snd := funext fun entry => Nat.add_comm entry.2 2
    rw [shifted, ← List.map_map, List.zipIdx_map_snd, List.map_add_range']
  consecutive := by
    refine ⟨rfl, rfl, ?_⟩
    exact consecutive_place 0 0 [] (distinct requests)
  components := by
    rw [slots_vertexLayout]
    refine List.forall_mem_cons.2 ⟨.inr rfl, List.forall_mem_cons.2 ⟨.inr rfl, ?_⟩⟩
    intro slot member
    obtain ⟨entry, -, rfl⟩ := List.mem_map.1 member
    exact entry.1.components_eq

end Plan

/-! ## Shaders -/

variable [Scalar W] [Scalar N] [Precision W N]

omit [Scalar W] [Scalar N] [Precision W N] in
/-- The vertex input of a shader has the fields of the layout. -/
theorem ProgramInputs.inputLines_eq (inputs : ProgramInputs W N) :
    inputs.inputLines = inputs.plan.vertexLayout.inputLines ++ [""] := by
  have declared (entry : Attribute W N × Nat) :
      s!"    @location({entry.2 + 2}) {entry.1.name}: {entry.1.inputType}," =
        (entry.1.slot entry.2).declaration := by
    rw [Attribute.inputType_eq]
    rfl
  rw [inputLines, VertexLayout.inputLines, Plan.slots_vertexLayout, List.map_cons, List.map_cons,
    List.map_map]
  simp only [declared, List.cons_append, List.append_assoc, List.nil_append]
  rfl

/-- The vertex input stands behind the uniform block of every vertex source. -/
theorem ProgramInputs.vertexLines_eq (inputs : ProgramInputs W N) (kind : ProgramKind) :
    ∃ after, inputs.vertexLines kind =
      [s!"// {kind.name} vertex program, {inputs.header}", ""] ++ inputs.uniforms.sourceLines ++
        [""] ++ inputs.plan.vertexLayout.inputLines ++ after := by
  rw [vertexLines, inputLines_eq]
  simp only [List.append_assoc]
  exact ⟨_, rfl⟩

/-! ## Words -/

/-- The bytes of some words. -/
def bytesOf (words : List N) : List UInt8 :=
  words.flatMap fun n => CompiledStyle.wordToBytes (Scalar.code n)

/-- The bytes of a vertex. -/
def Vertex.bytes (vertex : Vertex N) : List UInt8 := bytesOf vertex.words

omit [Scalar W] [Precision W N] in
theorem length_bytesOf (words : List N) : (bytesOf words).length = words.length * wordBytes := by
  induction words with
  | nil => rfl
  | cons n rest ih =>
    have word : (CompiledStyle.wordToBytes (Scalar.code n)).length = wordBytes := by
      rw [CompiledStyle.wordToBytes, List.length_map, List.length_range]
    rw [bytesOf, List.flatMap_cons, List.length_append, List.length_cons, Nat.succ_mul, word,
      Nat.add_comm]
    exact congrArg (· + wordBytes) ih

/-- The words of the fields of attributes for some values, one value for each attribute. -/
def Plan.packed (plan : Plan W N) (values : List (Value W N)) : List (List N) :=
  List.zipWith (fun a value => (a.pack value).1) plan.attributes values

/-- The words of the fields of a vertex whose attributes carry some values. -/
def Plan.fields (plan : Plan W N) (vertex : Vertex N) (values : List (Value W N)) :
    List (List N) :=
  [vertex.position.x, vertex.position.y] :: [vertex.extrude.x, vertex.extrude.y] ::
    plan.packed values

theorem Plan.flatten_fields {plan : Plan W N} {vertex : Vertex N} {values : List (Value W N)}
    (carried : vertex.attributes = (plan.packed values).flatten) :
    (plan.fields vertex values).flatten = vertex.words := by
  rw [Vertex.words, carried]
  rfl

theorem Attribute.forall₂_packed (index : Nat) {attributes : List (Attribute W N)}
    {values : List (Value W N)} (given : values.length = attributes.length) :
    List.Forall₂ (fun slot words => (bytesOf words).length = slot.sizeBytes)
      ((attributes.zipIdx index).map fun entry => entry.1.slot entry.2)
      (List.zipWith (fun a value => (a.pack value).1) attributes values) := by
  induction attributes generalizing index values with
  | nil => exact .nil
  | cons a rest ih =>
    obtain ⟨value, later, rfl⟩ := List.exists_cons_of_length_eq_add_one given
    refine .cons ?_ (ih (index + 1) (Nat.succ.inj given))
    rw [length_bytesOf, a.length_pack]
    rfl

/-- The words of every field fill it. -/
theorem Plan.forall₂_fields (plan : Plan W N) (vertex : Vertex N) {values : List (Value W N)}
    (given : values.length = plan.attributes.length) :
    List.Forall₂ (fun slot words => (bytesOf words).length = slot.sizeBytes)
      plan.vertexLayout.slots (plan.fields vertex values) :=
  .cons (length_bytesOf _) (.cons (length_bytesOf _) (Attribute.forall₂_packed 0 given))

/-- What is packed for a field of a vertex is what is read of it. -/
theorem Plan.read_fields {plan : Plan W N} (tiles : plan.vertexLayout.Tiles) {vertex : Vertex N}
    {values : List (Value W N)} (given : values.length = plan.attributes.length)
    (carried : vertex.attributes = (plan.packed values).flatten) :
    vertex.bytes.length = plan.vertexLayout.strideBytes ∧
      List.Forall₂ (fun slot words => slot.read vertex.bytes = bytesOf words)
        plan.vertexLayout.slots (plan.fields vertex values) := by
  have whole : vertex.bytes = ((plan.fields vertex values).map bytesOf).flatten := by
    rw [Vertex.bytes, ← flatten_fields carried]
    simp only [bytesOf, List.flatMap_def, List.map_flatten, List.flatten_flatten, List.map_map]
    rfl
  have sized : List.Forall₂ (fun slot field => field.length = slot.sizeBytes)
      plan.vertexLayout.slots ((plan.fields vertex values).map bytesOf) :=
    List.forall₂_map_right_iff.2 (plan.forall₂_fields vertex given)
  obtain ⟨ends, reads⟩ := tiles.consecutive.read sized [] rfl
  rw [List.nil_append, ← whole] at ends reads
  exact ⟨ends, List.forall₂_map_right_iff.1 reads⟩

namespace CompiledStyle

/-- What is packed into an attribute for a feature. -/
def carriedValue (c : Context W N) (a : Attribute W N) : Value W N :=
  match attributeValue c a with
  | .ok value => value
  | .error _ => attributeDefault a

/-- The words of a feature are those of one value for each attribute. -/
theorem featureWords_eq (style : CompiledStyle W N) (c : Context W N) (index : Nat) :
    (style.featureWords c index).1 =
      (style.plan.packed (style.plan.attributes.map (carriedValue c))).flatten := by
  have words (a : Attribute W N) :
      (attributeWords c index a).1 = (a.pack (carriedValue c a)).1 := by
    unfold attributeWords carriedValue
    cases attributeValue c a <;> rfl
  rw [featureWords, Plan.packed, List.zipWith_map_right, List.zipWith_self, List.flatMap_map,
    List.flatMap_def]
  simp only [words]

end CompiledStyle

/-! ## Agreement -/

namespace Plan

/-- All descriptions of a vertex agree. A plan has one attribute for each source, in the order of
the first requests. The fields of its layout are the position, the extrusion and the attributes;
they have the locations from zero on and fill the vertex without gap or overlap. The device is
told the same places, with a format of as many words, and the vertex input of every shader
declares the same fields, with the type of as many numbers. Whatever values are packed, the
bytes of a field are those of its own value; and this is how the words of a feature are packed. -/
theorem layout_agrees (requests : List (AttributeRequest W N)) :
    let plan := ofRequests requests
    let layout := plan.vertexLayout
    List.Forall₂ Attribute.Carries plan.attributes
      (requests.eraseDupsBy fun later earlier => earlier.source == later.source) ∧
    (layout.slots.map VertexSlot.name =
        "position" :: "extrude" :: plan.attributes.map Attribute.name ∧
      layout.slots.map VertexSlot.components =
        2 :: 2 :: plan.attributes.map Attribute.components ∧ layout.Tiles) ∧
    List.Forall₂ (fun slot told => told.location = slot.location ∧
      told.offset = slot.offsetBytes ∧ told.format.components = slot.components)
      layout.slots layout.vertexAttributes ∧
    (∀ (inputs : ProgramInputs W N) (kind : ProgramKind), inputs.plan = plan →
      (∃ after, inputs.vertexLines kind =
        [s!"// {kind.name} vertex program, {inputs.header}", ""] ++ inputs.uniforms.sourceLines ++
          [""] ++ layout.inputLines ++ after) ∧
      (inputs.program kind).vertexSource =
        String.join ((inputs.vertexLines kind).map (· ++ "\n"))) ∧
    (∀ (vertex : Vertex N) (values : List (Value W N)),
      values.length = plan.attributes.length →
      vertex.attributes = (plan.packed values).flatten →
      vertex.bytes.length = layout.strideBytes ∧
        List.Forall₂ (fun slot words => slot.read vertex.bytes = bytesOf words) layout.slots
          (plan.fields vertex values)) ∧
    ∀ (style : CompiledStyle W N) (c : Context W N) (index : Nat), style.plan = plan →
      ∃ values, values.length = plan.attributes.length ∧
        (style.featureWords c index).1 = (plan.packed values).flatten := by
  intro plan layout
  have tiles : layout.Tiles := tiles_vertexLayout requests
  have joined (inputs : ProgramInputs W N) (kind : ProgramKind) :
      (inputs.program kind).vertexSource =
        String.join ((inputs.vertexLines kind).map (· ++ "\n")) := by
    simp only [ProgramInputs.program]
  refine ⟨?_, ⟨?_, ?_, tiles⟩, ?_, fun inputs kind same => ⟨?_, joined inputs kind⟩,
    fun vertex values given carried => read_fields tiles given carried,
    fun style c index same => ?_⟩
  · rw [← distinct_eq_eraseDupsBy]
    exact forall₂_carries_place 0 [] (distinct requests)
  · exact map_slots _ fun _ _ => rfl
  · exact map_slots _ fun _ _ => rfl
  · refine List.forall₂_map_right_iff.2 (List.forall₂_same.2 fun slot member => ⟨rfl, rfl, ?_⟩)
    exact VertexFormat.components_ofComponents (tiles.components slot member)
  · obtain ⟨after, lines⟩ := inputs.vertexLines_eq kind
    exact ⟨after, by rw [lines, same]⟩
  · refine ⟨plan.attributes.map (CompiledStyle.carriedValue c), List.length_map _, ?_⟩
    rw [style.featureWords_eq, same]

/-- A color, a number that is asked for twice, and a string. -/
def roadRequests : List (AttributeRequest Double Single) :=
  [.ofEvaluated .strokeColor (.literal (.color Color.black)), .ofProperty "lanes" .number none,
    .ofProperty "lanes" .string none, .ofProperty "class" .string none]

/-- What a program of a style with these requests is written from. -/
def roadInputs : ProgramInputs Double Single :=
  ⟨"style", ofRequests roadRequests, .initial, []⟩

/-- A style with these requests that sets nothing. -/
def roadStyle : CompiledStyle Double Single :=
  ⟨0, [], ofRequests roadRequests, .initial, [], .empty, .empty⟩

/-- A vertex of a black road. -/
def roadVertex (values : List (Value Double Single)) : Vertex Single :=
  ⟨⟨Scalar.zero, Scalar.zero⟩, ⟨Scalar.one, Scalar.zero⟩,
    ((ofRequests roadRequests).packed values).flatten⟩

/-- The class of a road fills the last of its eight words, the shader declares it as one number,
and there it reads the number of the class. -/
theorem roadRequests_layout :
    let plan := ofRequests roadRequests
    let values : List (Value Double Single) :=
      [.color Color.black, .number Scalar.one, .string "road"]
    let slot : VertexSlot := ⟨"a_prop_class", 4, 1, 28⟩
    plan.vertexLayout.strideBytes = 32 ∧ slot ∈ plan.vertexLayout.slots ∧
      slot.declaration = "    @location(4) a_prop_class: f32," ∧
      (∃ before after, roadInputs.vertexLines .stroke =
        before ++ plan.vertexLayout.inputLines ++ after) ∧
      values.length = plan.attributes.length ∧
      slot.read (roadVertex values).bytes =
        bytesOf [(Scalar.ofNat (stringId "road") : Single)] ∧
      ∃ words : List (Value Double Single), words.length = 3 ∧
        (roadStyle.featureWords (roadStyle.buildContext noProperties Scalar.zero) 0).1 =
          (plan.packed words).flatten := by
  intro plan values slot
  obtain ⟨-, -, -, declared, reads, packed⟩ := layout_agrees roadRequests
  obtain ⟨⟨after, lines⟩, -⟩ := declared roadInputs .stroke rfl
  obtain ⟨-, fields⟩ := reads (roadVertex values) values rfl rfl
  obtain ⟨words, count, ofFeature⟩ :=
    packed roadStyle (roadStyle.buildContext noProperties Scalar.zero) 0 rfl
  have last : slot.read (roadVertex values).bytes =
      bytesOf [(Scalar.ofNat (stringId "road") : Single)] :=
    (List.forall₂_iff_get.1 fields).2 4 (by decide) (by decide)
  exact ⟨rfl, by decide, by decide, ⟨_, after, lines⟩, rfl, last, words, count, ofFeature⟩

end Plan

end MapStyle
