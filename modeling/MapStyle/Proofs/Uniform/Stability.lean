import MapStyle.Proofs.Uniform.Layout

/-!
# Slots are for good

A layout that is asked for uniforms, one after another and in any order, gets one slot for each
source that it is asked for. The slot and its name stay what they are, however often and under
whatever type the source is asked for again, and the inputs that every program may read stay the
first ones, under the names that the programs are written with.
-/

namespace MapStyle

/-- What a layout is asked to declare. -/
inductive UniformRequest where
  | frame (input : FrameInput) (type : ShaderType)
  | property (property : StyleProperty)

namespace UniformRequest

/-- The slot that is asked for. -/
def slot : UniformRequest → UniformSlot
  | .frame input type => ⟨UniformLayout.inputName input, type, .frame input⟩
  | .property p => ⟨"u_" ++ p.identifier, ShaderType.of p.type, .property p⟩

def source (request : UniformRequest) : UniformSource := request.slot.source

end UniformRequest

namespace UniformLayout

/-- Declare what is asked for, and tell its name. -/
def grant (layout : UniformLayout) : UniformRequest → UniformLayout × String
  | .frame input type => layout.frameInput input type
  | .property p => layout.property p

/-- The layout after some requests. -/
def afterAll (layout : UniformLayout) (requests : List UniformRequest) : UniformLayout :=
  requests.foldl (fun layout request => (layout.grant request).1) layout

/-- The slots of the inputs that every program may read. -/
def frameSlots : List UniformSlot :=
  [⟨"u_zoom", .float, .frame .zoom⟩, ⟨"u_resolution", .float, .frame .resolution⟩,
    ⟨"u_time", .float, .frame .time⟩]

/-- Names and sources differ, the names are names of uniforms, and the inputs that every program may
read come first. -/
structure WellFormed (layout : UniformLayout) : Prop where
  names : (layout.slots.map UniformSlot.name).Nodup
  sources : (layout.slots.map UniformSlot.source).Nodup
  words : layout.Words
  lead : frameSlots <+: layout.slots

variable {layout : UniformLayout}

/-! ## One request -/

theorem grant_eq (layout : UniformLayout) (request : UniformRequest) :
    layout.grant request = layout.declare request.slot := by
  cases request <;> rfl

theorem extends_grant (layout : UniformLayout) (request : UniformRequest) :
    Extends layout (layout.grant request).1 := by
  rw [grant_eq]
  exact layout.extends_declare _

/-- The source that was asked for has a slot, under the name that is told. -/
theorem exists_granted (layout : UniformLayout) (request : UniformRequest) :
    ∃ slot ∈ (layout.grant request).1.slots,
      slot.source = request.source ∧ slot.name = (layout.grant request).2 := by
  rw [grant_eq]
  exact layout.exists_declared request.slot

theorem named_slot (request : UniformRequest) : Named request.slot.name := by
  cases request with
  | frame input => exact named_inputName input
  | property p => exact named_property p

theorem wellFormed_grant (wellFormed : layout.WellFormed) (request : UniformRequest) :
    (layout.grant request).1.WellFormed where
  names := (layout.extends_grant request).distinct wellFormed.names
  sources := by
    rw [grant_eq]
    exact nodup_sources_declare wellFormed.sources _
  words := by
    rw [grant_eq]
    exact words_declare wellFormed.words (named_slot request)
  lead := wellFormed.lead.trans (layout.extends_grant request).slots

/-! ## Many requests -/

theorem wellFormed_initial : initial.WellFormed where
  names := distinct_initial
  sources := by decide
  words := words_initial
  lead := List.prefix_refl _

theorem extends_afterAll (layout : UniformLayout) (requests : List UniformRequest) :
    Extends layout (layout.afterAll requests) := by
  induction requests generalizing layout with
  | nil => exact .refl layout
  | cons request rest ih => exact (layout.extends_grant request).trans (ih _)

theorem wellFormed_afterAll (wellFormed : layout.WellFormed) (requests : List UniformRequest) :
    (layout.afterAll requests).WellFormed := by
  induction requests generalizing layout with
  | nil => exact wellFormed
  | cons request rest ih => exact ih (wellFormed_grant wellFormed request)

/-- What the programs read under the name of the resolution is the resolution. -/
theorem WellFormed.resolution (wellFormed : layout.WellFormed) {slot : UniformSlot}
    (member : slot ∈ layout.slots) (named : slot.name = "u_resolution") :
    slot.source = .frame .resolution := by
  have declared : ⟨"u_resolution", .float, .frame .resolution⟩ ∈ layout.slots :=
    wellFormed.lead.subset (by decide)
  rw [List.inj_on_of_nodup_map wellFormed.names member declared named]

/-- Whatever a layout is asked for, and in whatever order, no two slots share a name or a source,
all names are identifiers and not reserved, and the slots of the inputs that every program may read
are the first three; so what the programs read as `u_resolution` is the resolution. Every request
along the way left the slots before it where they were, and those after it stay as well. It told
the name of the one slot of its source, and whatever has been asked for since, asking for that
source again tells the same name and adds no slot. -/
theorem slots_stay (requests : List UniformRequest) :
    let final := initial.afterAll requests
    (final.slots.map UniformSlot.name).Nodup ∧
    (∀ slot ∈ final.slots, Identifier.Valid slot.name) ∧
    (final.slots.map UniformSlot.source).Nodup ∧
    (∃ others, final.slots = frameSlots ++ others) ∧
    (∀ slot ∈ final.slots, slot.name = "u_resolution" → slot.source = .frame .resolution) ∧
    ∀ earlier request later, requests = earlier ++ request :: later →
      let before := initial.afterAll earlier
      let granted := before.grant request
      before.slots <+: granted.1.slots ∧ granted.1.slots <+: final.slots ∧
      (∃ slot ∈ granted.1.slots, slot.source = request.source ∧ slot.name = granted.2 ∧
        ∀ other ∈ final.slots, other.source = request.source → other = slot) ∧
      ∀ again, again.source = request.source → final.grant again = (final, granted.2) := by
  intro final
  have wellFormed : final.WellFormed := wellFormed_afterAll wellFormed_initial requests
  obtain ⟨others, lead⟩ := wellFormed.lead
  refine ⟨wellFormed.names, fun slot member => (wellFormed.words slot member).valid,
    wellFormed.sources, ⟨others, lead.symm⟩, fun slot => wellFormed.resolution, ?_⟩
  intro earlier request later sequence before granted
  -- The run goes through the layout that this request leaves, so what it declared is still there.
  have reached : final = granted.1.afterAll later := by
    simp only [final, granted, before, sequence, afterAll, List.foldl_append, List.foldl_cons]
  have stays : Extends granted.1 final := reached ▸ granted.1.extends_afterAll later
  obtain ⟨slot, declared, source, named⟩ := exists_granted before request
  have kept : slot ∈ final.slots := stays.mem declared
  refine ⟨(before.extends_grant request).slots, stays.slots,
    ⟨slot, declared, source, named, ?_⟩, ?_⟩
  · intro other member same
    exact List.inj_on_of_nodup_map wellFormed.sources member kept (same.trans source.symm)
  · intro again same
    rw [grant_eq, declare_of_mem wellFormed.sources kept (source.trans same.symm), named]

/-- Two variables whose names become one identifier, a property, and the second variable again,
as a number this time. -/
def highlightRequests : List UniformRequest :=
  [.frame (.styleVariable "high-light") .vec4, .frame (.styleVariable "high_light") .vec4,
    .property .fillColor, .frame (.styleVariable "high_light") .float]

/-- The second variable gets a suffix and keeps it. -/
theorem highlightRequests_stay :
    let final := initial.afterAll highlightRequests
    final.slots.map UniformSlot.name = ["u_zoom", "u_resolution", "u_time", "u_var_high_light",
      "u_var_high_light_1", "u_fill_color"] ∧
    (∀ slot ∈ final.slots, Identifier.Valid slot.name) ∧
    (∃ slot ∈ final.slots, slot.type = .vec4 ∧ slot.name = "u_var_high_light_1" ∧
      ∀ other ∈ final.slots, other.source = .frame (.styleVariable "high_light") → other = slot) ∧
    final.grant (.frame (.styleVariable "high_light") .float) = (final, "u_var_high_light_1") := by
  intro final
  obtain ⟨-, valid, -, -, -, along⟩ := slots_stay highlightRequests
  obtain ⟨-, stays, ⟨slot, declared, -, named, only⟩, again⟩ :=
    along (highlightRequests.take 1) (.frame (.styleVariable "high_light") .vec4)
      (highlightRequests.drop 2) rfl
  have asked : ⟨"u_var_high_light_1", .vec4, .frame (.styleVariable "high_light")⟩ ∈
      final.slots := by
    decide
  refine ⟨by decide, valid, ⟨slot, stays.subset declared, ?_, named, only⟩, again _ rfl⟩
  rw [← only _ asked rfl]

end UniformLayout

end MapStyle
