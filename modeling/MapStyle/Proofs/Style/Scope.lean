import MapStyle.Proofs.Dictionary
import MapStyle.Proofs.Style.Compiled

/-!
# What a shader sees

A name of the uniform block is bound to what its source holds in the frame, and the name of an
attribute to what its words are decoded to. Both are look-ups by name, and nothing is hidden
because names differ. The variables of a frame keep the types of their defaults.
-/

namespace MapStyle

variable {W N : Type} [Scalar W] [Scalar N] [Precision W N]

/-- A value of a type is coerced to that type as it is. -/
theorem Value.coerce?_type (value : Value W N) : value.coerce? value.type = some value := by
  cases value <;> rfl

namespace Frame

/-- What a frame makes of a variable: the override as a value of the type of the default, or else
the default. -/
def valueFor (frame : Frame W N) (name : String) (default : Value W N) : Value W N :=
  ((frame.bindings.get? name).bind (·.coerce? default.type)).getD default

theorem type_valueFor (frame : Frame W N) (name : String) (default : Value W N) :
    (frame.valueFor name default).type = default.type := by
  unfold valueFor
  cases given : (frame.bindings.get? name).bind (·.coerce? default.type) with
  | some value =>
    obtain ⟨override, -, coerced⟩ := Option.bind_eq_some_iff.1 given
    exact Value.type_coerce? coerced
  | none => rfl

end Frame

namespace CompiledStyle

variable {style : CompiledStyle W N}

/-- What an override comes to: one of a declared variable is coerced to the type of the default,
and one of another name stays as it is. -/
def admitted? (style : CompiledStyle W N) (name : String) (override : Value W N) :
    Option (Value W N) :=
  match style.bindings.get? name with
  | none => some override
  | some default => override.coerce? default.type

theorem admitted?_declared {name : String} {default : Value W N}
    (declared : style.bindings.get? name = some default) :
    style.admitted? name = fun override => override.coerce? default.type := by
  funext override
  rw [admitted?, declared]

theorem admitted?_undeclared {name : String} (undeclared : style.bindings.get? name = none) :
    style.admitted? name = some := by
  funext override
  rw [admitted?, undeclared]

/-- Take over an override. -/
def takeOver (style : CompiledStyle W N) (bindings : Dictionary (Value W N))
    (entry : String × Value W N) : Dictionary (Value W N) :=
  match style.admitted? entry.1 entry.2 with
  | some value => bindings.insert entry.1 value
  | none => bindings

theorem frameVariables_eq (style : CompiledStyle W N) (frame : Frame W N) :
    style.frameVariables frame = frame.bindings.entries.foldl style.takeOver style.bindings := by
  unfold frameVariables
  congr 1
  funext bindings ⟨name, override⟩
  simp only [takeOver, admitted?]
  cases style.bindings.get? name with
  | none => rfl
  | some default => rfl

theorem get?_takeOver (style : CompiledStyle W N) (bindings : Dictionary (Value W N))
    (entry : String × Value W N) (name : String) :
    (style.takeOver bindings entry).get? name =
      if name = entry.1 then (style.admitted? name entry.2).or (bindings.get? name)
      else bindings.get? name := by
  rw [takeOver]
  by_cases same : name = entry.1
  · subst same
    rw [if_pos rfl]
    cases style.admitted? entry.1 entry.2 with
    | some value => rw [Dictionary.get?_insert, if_pos rfl, Option.some_or]
    | none => rw [Option.none_or]
  · rw [if_neg same]
    cases style.admitted? entry.1 entry.2 with
    | some value => rw [Dictionary.get?_insert, if_neg same]
    | none => rfl

/-- What is found after overrides of different names were taken over. -/
theorem get?_foldl_takeOver (style : CompiledStyle W N) {entries : List (String × Value W N)}
    (distinct : (entries.map Prod.fst).Nodup) (bindings : Dictionary (Value W N)) (name : String) :
    (entries.foldl style.takeOver bindings).get? name =
      ((entries.lookup name).bind (style.admitted? name)).or (bindings.get? name) := by
  induction entries generalizing bindings with
  | nil => rfl
  | cons entry rest ih =>
    obtain ⟨other, override⟩ := entry
    rw [List.map_cons, List.nodup_cons] at distinct
    rw [List.foldl_cons, ih distinct.2, get?_takeOver, lookup_cons_if]
    by_cases same : name = other
    · have later : rest.lookup name = none := by
        refine Option.eq_none_iff_forall_ne_some.2 fun value found => distinct.1 ?_
        exact List.mem_map.2 ⟨_, mem_of_lookup found, same⟩
      rw [later, if_pos same, if_pos same, Option.bind_none, Option.none_or, Option.bind_some]
    · rw [if_neg same, if_neg same]

/-- The variables of a frame, one by one: a declared one has what the frame makes of it, and an
undeclared one is as the frame says. -/
theorem get?_frameVariables (style : CompiledStyle W N) (frame : Frame W N) (name : String) :
    (style.frameVariables frame).get? name =
      match style.bindings.get? name with
      | some default => some (frame.valueFor name default)
      | none => frame.bindings.get? name := by
  rw [frameVariables_eq, get?_foldl_takeOver style frame.bindings.nodup_names]
  show ((frame.bindings.get? name).bind _).or _ = _
  cases declared : style.bindings.get? name with
  | some default =>
    rw [admitted?_declared declared, Option.or_some]
    rfl
  | none => rw [admitted?_undeclared declared, Option.or_none, Option.bind_fun_some]

/-- A frame gives every variable of the style a value of the type of its default. -/
theorem exists_frameVariable (frame : Frame W N) {name : String} {default : Value W N}
    (declared : style.bindings.get? name = some default) :
    ∃ value, (style.frameVariables frame).get? name = some value ∧ value.type = default.type := by
  refine ⟨frame.valueFor name default, ?_, frame.type_valueFor name default⟩
  rw [get?_frameVariables, declared]

/-- What the interpreter reads of a frame is what the uniform block holds of it. -/
theorem uniformValue_input (frame : Frame W N) (properties : Properties W N) {source : FrameInput}
    {type : ValueType} {env : Environment W N} (same : env.bindings = style.bindings)
    (declared : source.type? env = some type) :
    ∃ value, Context.read { style.frameContext frame with properties } type source = value ∧
      value.type = type ∧
      style.uniformValue (style.frameContext frame) (.frame source) = value.toVec4 := by
  cases source with
  | styleVariable name =>
    obtain ⟨default, ofName, rfl⟩ := Option.map_eq_some_iff.1 declared
    rw [same] at ofName
    obtain ⟨value, found, ofType⟩ := exists_frameVariable frame ofName
    refine ⟨value, ?_, ofType, ?_⟩
    · simp only [Context.read, frameContext, found, Option.bind_some, ← ofType,
        Value.coerce?_type, Option.getD_some]
    · simp only [uniformValue, frameContext, found]
  | _ =>
    cases declared
    exact ⟨_, rfl, rfl, rfl⟩

/-- A slot of the uniform block is found under its name. -/
theorem shaderScope_uniforms (distinct : (style.uniforms.slots.map UniformSlot.name).Nodup)
    (c : Context W N) (frame : Frame W N) {slot : UniformSlot}
    (member : slot ∈ style.uniforms.slots) :
    (style.shaderScope c frame).uniforms slot.name =
      some (.vec4 (style.uniformValue (style.frameContext frame) slot.source)) := by
  have slots : style.uniformSlots frame = style.uniforms.slots.map fun slot =>
      (slot.name, style.uniformValue (style.frameContext frame) slot.source) := by
    rw [uniformSlots, uniformValues, List.zip_map']
  have found : (style.uniformSlots frame).lookup slot.name =
      some (style.uniformValue (style.frameContext frame) slot.source) := by
    rw [slots]
    refine lookup_of_mem ?_ (List.mem_map.2 ⟨slot, member, rfl⟩)
    rw [List.map_map]
    exact distinct
  simp only [shaderScope, found, Option.map_some]

/-- An attribute with a value is found under its name. -/
theorem shaderScope_unpacked (distinct : (style.plan.attributes.map Attribute.unpackedName).Nodup)
    {c : Context W N} (frame : Frame W N) {a : Attribute W N} (member : a ∈ style.plan.attributes)
    {value : Value W N} (given : attributeValue c a = .ok value) :
    (style.shaderScope c frame).unpacked a.unpackedName = some (a.decode (a.pack value).1) := by
  refine lookup_of_mem ?_ ?_
  · refine List.Nodup.sublist ?_ distinct
    generalize style.plan.attributes = attributes
    induction attributes with
    | nil => exact .slnil
    | cons first rest ih =>
      rw [List.filterMap_cons]
      split
      next => exact ih.cons _
      next entry bound =>
        obtain ⟨read, -, rfl⟩ := Option.map_eq_some_iff.1 bound
        exact ih.cons_cons _
  · refine List.mem_filterMap.2 ⟨a, member, ?_⟩
    rw [given]
    rfl

end CompiledStyle

end MapStyle
