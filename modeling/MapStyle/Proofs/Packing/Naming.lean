import MapStyle.Number.Binary
import MapStyle.Proofs.Packing.Plan
import MapStyle.Proofs.Shader.Template

/-!
# Names of attributes

Shader code reads an attribute under one name and the vertex input declares its field under
another. Both are identifiers, shared with no other attribute and with nothing that the template
of the vertex source declares, whatever the feature properties are called. So a feature property
that is read by its name is read from its own attribute.
-/

namespace MapStyle

namespace Plan

variable {W N : Type} [Scalar W] [Scalar N] {requests : List (AttributeRequest W N)}

theorem name_eq {a : Attribute W N} (member : a ∈ (ofRequests requests).attributes) :
    a.name = "a_" ++ a.unpackedName :=
  name_of_mem_place member

/-- No two attributes share the name of their field. -/
theorem nodup_fieldNames (requests : List (AttributeRequest W N)) :
    ((ofRequests requests).attributes.map Attribute.name).Nodup := by
  have named : (ofRequests requests).attributes.map Attribute.name =
      ((ofRequests requests).attributes.map Attribute.unpackedName).map ("a_" ++ ·) := by
    rw [List.map_map]
    exact List.map_congr_left fun a member => name_eq member
  rw [named]
  exact (nodup_names requests).map fun _ _ => (String.append_right_inj "a_").1

/-! ## Identifiers -/

/-- What the names of attributes open with: those of fields, and those of unpacked values. -/
def openings : List String := "a_" :: AttributeRequest.openings

theorem opening_of_mem : ∀ front ∈ openings, Identifier.Opening front :=
  List.forall_mem_cons.2 ⟨by decide, AttributeRequest.opening_of_mem⟩

/-- Both names of an attribute open like names of attributes and have the characters of
identifiers. -/
theorem opening_of_name (standard : ∀ request ∈ requests, request.Standard) {a : Attribute W N}
    (member : a ∈ (ofRequests requests).attributes) :
    ∀ name ∈ [a.unpackedName, a.name], Text.Run Identifier.isWord name.toList ∧
      ∃ front ∈ openings, front.toList <+: name.toList := by
  have word := run_unpackedName member
  obtain ⟨front, opens, starts⟩ := exists_opening standard member
  refine List.forall_mem_cons.2 ⟨⟨word, front, List.mem_cons_of_mem _ opens, starts⟩,
    List.forall_mem_singleton.2 ?_⟩
  rw [name_eq member, String.toList_append]
  exact ⟨List.forall_mem_append.2 ⟨List.all_eq_true.1 (by decide), word⟩, "a_",
    List.mem_cons_self, List.prefix_append _ _⟩

/-- Nothing that the template declares opens like a name of an attribute. -/
theorem not_prefix_templateNames : ∀ front ∈ openings, ∀ name ∈ ProgramInputs.templateNames,
    ¬front.toList <+: name.toList := by
  decide +kernel

/-! ## Reading by name -/

/-- Different feature properties are read under different names. -/
theorem eq_of_unpackedProperty? {property other unpacked : String}
    (read : (ofRequests requests).unpackedProperty? property = some unpacked)
    (readOther : (ofRequests requests).unpackedProperty? other = some unpacked) :
    property = other := by
  obtain ⟨a, member, source, named⟩ := exists_of_unpackedProperty? read
  obtain ⟨b, memberOther, sourceOther, namedOther⟩ := exists_of_unpackedProperty? readOther
  have same : a = b := List.inj_on_of_nodup_map (nodup_names requests) member memberOther
    (named.trans namedOther.symm)
  rw [same, sourceOther] at source
  exact (AttributeSource.property.inj source).symm

/-- The names of attributes are shared with nothing else. No two attributes of a plan share the name
of their unpacked values or that of their fields. Where the requests are for feature properties,
called whatever they are, and for style properties, each of these names is an identifier and not
reserved, and no name of the template; and what the lines of any vertex source declare are names of
the template, but for the lines that a style fills in. A feature property that was requested is read
under the name of an attribute of its own, and another one under another name. The search for a name
that is not taken ends, whatever names are taken. -/
theorem names_apart [Precision W N] (requests : List (AttributeRequest W N)) :
    let plan := ofRequests requests
    (plan.attributes.map Attribute.unpackedName).Nodup ∧
    (plan.attributes.map Attribute.name).Nodup ∧
    ((∀ request ∈ requests, request.Standard) →
      ∀ a ∈ plan.attributes, ∀ name ∈ [a.unpackedName, a.name],
        Identifier.Valid name ∧ name ∉ ProgramInputs.templateNames) ∧
    (∀ (inputs : ProgramInputs W N) (kind : ProgramKind),
      (inputs.program kind).vertexSource = SourceLine.source (inputs.vertexStatements kind) ∧
      ∀ line ∈ inputs.vertexStatements kind, line ∈ inputs.filledLines ∨
        ∀ name ∈ line.declared, name ∈ ProgramInputs.templateNames) ∧
    (∀ request ∈ requests, ∀ property, request.source = .property property →
      ∃ a ∈ plan.attributes, a.source = .property property ∧
        plan.unpackedProperty? property = some a.unpackedName) ∧
    (∀ property other unpacked, plan.unpackedProperty? property = some unpacked →
      plan.unpackedProperty? other = some unpacked → property = other) ∧
    ∀ taken base, Identifier.Search taken base 0 (Identifier.firstFree taken base) := by
  intro plan
  refine ⟨nodup_names requests, nodup_fieldNames requests, fun standard a member name ofA => ?_,
    fun inputs kind => ⟨inputs.vertexSource_eq kind,
      fun line => ProgramInputs.declared_mem_templateNames⟩,
    fun request asked property source => exists_read asked source,
    fun property other unpacked => eq_of_unpackedProperty?, Identifier.search_firstFree⟩
  obtain ⟨word, front, opens, starts⟩ := opening_of_name standard member name ofA
  exact ⟨(opening_of_mem front opens).valid starts word,
    fun inTemplate => not_prefix_templateNames front opens name inTemplate starts⟩

/-- Feature properties whose names become one identifier, one that is called like another with its
suffix, and a property of the style. -/
def collidingRequests : List (AttributeRequest Double Single) :=
  [.ofProperty "road_class_1" .number none, .ofProperty "road-class" .number none,
    .ofProperty "road_class" .string none, .ofProperty "road-class" .number none,
    .ofEvaluated .strokeColor (.literal (.color Color.black))]

/-- The first suffix is taken by the property that is called like that, so the next one is used. -/
theorem collidingRequests_apart :
    let plan := ofRequests collidingRequests
    (∀ request ∈ collidingRequests, request.Standard) ∧
    plan.attributes.map Attribute.unpackedName =
      ["prop_road_class_1", "prop_road_class", "prop_road_class_2", "style_stroke_color"] ∧
    (plan.attributes.map Attribute.unpackedName).Nodup ∧
    Identifier.Valid "prop_road_class_2" ∧ Identifier.Valid "a_prop_road_class_2" ∧
    "prop_road_class_2" ∉ ProgramInputs.templateNames ∧
    plan.unpackedProperty? "road_class" = some "prop_road_class_2" ∧
    ∀ other, plan.unpackedProperty? other = some "prop_road_class_2" → "road_class" = other := by
  intro plan
  have standard : ∀ request ∈ collidingRequests, request.Standard := by
    simp only [collidingRequests, List.forall_mem_cons]
    exact ⟨.property _ _ _, .property _ _ _, .property _ _ _, .property _ _ _, .evaluated _ _,
      fun _ last => nomatch last⟩
  have names : plan.attributes.map Attribute.unpackedName =
      ["prop_road_class_1", "prop_road_class", "prop_road_class_2", "style_stroke_color"] := rfl
  have read : plan.unpackedProperty? "road_class" = some "prop_road_class_2" := rfl
  obtain ⟨a, member, unpacked, field⟩ : ∃ a ∈ plan.attributes,
      a.unpackedName = "prop_road_class_2" ∧ a.name = "a_prop_road_class_2" :=
    ⟨_, List.mem_cons_of_mem _ (List.mem_cons_of_mem _ List.mem_cons_self), rfl, rfl⟩
  obtain ⟨distinct, -, named, -, -, reads, -⟩ := names_apart collidingRequests
  obtain ⟨ofUnpacked, ofField⟩ := List.forall_mem_cons.1 (named standard a member)
  rw [unpacked] at ofUnpacked
  have fieldValid := (List.forall_mem_singleton.1 ofField).1
  rw [field] at fieldValid
  exact ⟨standard, names, distinct, ofUnpacked.1, fieldValid, ofUnpacked.2, read,
    fun other => reads _ _ _ read⟩

end Plan

end MapStyle
