import MapStyle.Proofs.Shader.Statements
import MapStyle.Proofs.Style.Compiled

/-!
# Compiled styles are well-typed

Lowering keeps types: the shader expression of a well-typed tree has the shader type of the
tree's type, over the attributes that the plan has for the properties it reads. So every shader
value of a compiled style is closed and has the type of its property, and in the vertex source
of every program each attribute is unpacked once, before it is read.
-/

namespace MapStyle

variable {W N : Type} [Scalar W] [Scalar N]

/-- What a plan has under the name of a feature property is an attribute of a type. -/
def Plan.Supplies (plan : Plan W N) (name : String) (type : ValueType) : Prop :=
  ∀ unpacked, plan.unpackedProperty? name = some unpacked →
    ∃ a ∈ plan.attributes, a.unpackedName = unpacked ∧ a.type = type

variable [Precision W N]

namespace Expr

variable {t : Target W N} {layout : UniformLayout} {env : Environment W N}

theorem hasType_constant {e : Expr W N} {value : Value W N} {s : ShaderExpr N}
    (typed : e.WellTyped env) (shared : e.isFeatureDependent = false)
    (evaluated : e.evaluate t.constantContext = .ok value)
    (shown : ShaderExpr.ofValue? value = some s) :
    s.HasType t.plan layout (ShaderType.of e.type) := by
  obtain ⟨other, given, ofType⟩ := exists_evaluate_shared typed shared t.constantContext
  rw [evaluated] at given
  cases given
  rw [← ofType]
  exact ShaderExpr.hasType_ofValue? shown

/-- Trees that are lowered to one type one by one are so as a list. -/
theorem hasType_all {es : List (Expr W N)} {ss : List (ShaderExpr N)}
    {type : ShaderType} (lowered : List.Forall₂ (Lowered t layout) es ss)
    (each : ∀ e ∈ es, ∀ s, Lowered t layout e s → s.HasType t.plan layout type) :
    ∀ s ∈ ss, s.HasType t.plan layout type := by
  induction lowered with
  | nil => exact fun _ member => nomatch member
  | cons first rest ih =>
    obtain ⟨ofFirst, ofRest⟩ := List.forall_mem_cons.1 each
    exact List.forall_mem_cons.2 ⟨ofFirst _ first, ih ofRest⟩

omit [Scalar W] [Scalar N] [Precision W N] in
theorem hasType_selections {plan : Plan W N} {otherwise : ShaderExpr N} {type : ShaderType}
    (ofOtherwise : otherwise.HasType plan layout type)
    {branches : List (ShaderExpr N × ShaderExpr N)}
    (typed : ∀ branch ∈ branches,
      branch.1.HasType plan layout .bool ∧ branch.2.HasType plan layout type) :
    (ShaderExpr.selections otherwise branches).HasType plan layout type := by
  induction branches with
  | nil => exact ofOtherwise
  | cons branch rest ih =>
    obtain ⟨⟨ofCondition, ofResult⟩, ofRest⟩ := List.forall_mem_cons.1 typed
    exact .select (ih ofRest) ofResult ofCondition

omit [Scalar W] [Precision W N] in
/-- What an operator was lowered to has the type of its result when every operand has the type of
its argument. -/
theorem hasType_operator {op : Operator} {args : List (Expr W N)} {operands : List (ShaderExpr N)}
    (accepted : op.Accepts (args.map Expr.type)) (count : args.length = operands.length)
    (ofArgs : ∀ type, (∀ arg ∈ args, arg.type = type) →
      ∀ s ∈ operands, s.HasType t.plan layout (ShaderType.of type)) :
    (ShaderExpr.ofOperator op operands).HasType t.plan layout
      (ShaderType.of op.signature.result) := by
  obtain ⟨admitted, types⟩ := accepted
  rw [List.length_map, count] at admitted
  split at types
  next equality =>
    obtain ⟨common, -, same⟩ := types
    have ofCommon := ofArgs common fun arg member => same _ (List.mem_map_of_mem member)
    have two : operands.length = 2 ∧ op.signature.result = .boolean := by
      rcases equality with rfl | rfl
      · obtain ⟨least, most⟩ := Arity.admits_iff.1 admitted
        exact ⟨Nat.le_antisymm (most 2 rfl) least, rfl⟩
      · obtain ⟨least, most⟩ := Arity.admits_iff.1 admitted
        exact ⟨Nat.le_antisymm (most 2 rfl) least, rfl⟩
    rw [two.2]
    exact ShaderExpr.hasType_equality equality two.1 ofCommon
  next different =>
    refine ShaderExpr.hasType_ofOperator different admitted ?_
    exact ofArgs _ fun arg member => types _ (List.mem_map_of_mem member)

/-- Lowering a well-typed tree keeps its type. -/
theorem hasType_lowered (e : Expr W N) {s : ShaderExpr N} (lowered : Lowered t layout e s)
    (typed : e.WellTyped env) (shown : e.type ≠ .numberArray)
    (supplied : ∀ node ∈ e.nodes, ∀ name type, node = property name type →
      t.plan.Supplies name type) :
    s.HasType t.plan layout (ShaderType.of e.type) := by
  induction e using structural generalizing s with
  | literal | external =>
    cases lowered with
    | constant shared _ evaluated shown => exact hasType_constant typed shared evaluated shown
  | property name type =>
    cases lowered with
    | constant shared _ evaluated shown => exact hasType_constant typed shared evaluated shown
    | property planned =>
      obtain ⟨a, member, rfl, rfl⟩ := supplied _ (mem_nodes_self _) name type rfl _ planned
      exact .unpacked member
  | input source type =>
    cases lowered with
    | constant shared _ evaluated shown => exact hasType_constant typed shared evaluated shown
    | input member filled => exact .uniform member _
  | operator op args type ih =>
    cases lowered with
    | constant shared _ evaluated shown => exact hasType_constant typed shared evaluated shown
    | operator ofArgs =>
      obtain ⟨⟨rfl, accepted⟩, typedArgs⟩ := wellTyped_operator_iff.1 typed
      obtain ⟨-, supplied⟩ := forall_nodes_operator.1 supplied
      refine hasType_operator accepted ofArgs.length_eq fun type same => ?_
      refine hasType_all ofArgs fun arg member s lowered => ?_
      rw [← same arg member]
      exact ih arg member lowered (typedArgs arg member)
        (accepted.ne_numberArray _ (List.mem_map_of_mem member)) (supplied arg member)
  | interpolate curve x stops type ihInput ihStops =>
    cases lowered with
    | constant shared _ evaluated shown => exact hasType_constant typed shared evaluated shown
    | @interpolate _ _ _ _ position outputs ofInput ofStops =>
      obtain ⟨⟨ofNumber, nonempty, blendable, types, -⟩, typedInput, typedStops⟩ :=
        wellTyped_interpolate_iff.1 typed
      obtain ⟨-, suppliedInput, supplied⟩ := forall_nodes_interpolate.1 supplied
      have shownInput : x.type ≠ .numberArray := by rw [ofNumber]; decide
      have ofPosition : position.HasType t.plan layout .float := by
        have ofInput := ihInput ofInput typedInput shownInput suppliedInput
        rwa [ofNumber] at ofInput
      have ofOutputs : ∀ s ∈ outputs, s.HasType t.plan layout (ShaderType.of type) := by
        refine hasType_all ofStops fun output member s lowered => ?_
        obtain ⟨stop, inStops, rfl⟩ := List.mem_map.1 member
        have same := types stop inStops
        rw [← same]
        exact ihStops stop inStops lowered (typedStops stop inStops) (same ▸ shown)
          (supplied stop inStops)
      have shaderBlendable : ShaderType.of type = .float ∨ ShaderType.of type = .vec4 := by
        rcases blendable with rfl | rfl
        · exact .inl rfl
        · exact .inr rfl
      have places : (stops.map Prod.fst).zip outputs ≠ [] := by
        have count : outputs.length = stops.length := by
          rw [← ofStops.length_eq, List.length_map]
        intro empty
        have none := congrArg List.length empty
        rw [List.length_zip, List.length_map, count, Nat.min_self] at none
        exact nonempty (List.length_eq_zero_iff.1 none)
      refine ShaderExpr.hasType_ofStops curve shaderBlendable ofPosition places ?_
      exact fun stop member => ofOutputs stop.2 (List.of_mem_zip member).2
  | case branches fallback type ihBranches ihFallback =>
    cases lowered with
    | constant shared _ evaluated shown => exact hasType_constant typed shared evaluated shown
    | @case _ _ _ tests outputs otherwise ofConditions ofResults ofFallback =>
      obtain ⟨⟨sameType, types⟩, typedBranches, typedFallback⟩ := wellTyped_case_iff.1 typed
      obtain ⟨-, supplied, suppliedFallback⟩ := forall_nodes_case.1 supplied
      have conditions : ∀ s ∈ tests, s.HasType t.plan layout .bool := by
        refine hasType_all ofConditions fun condition member s lowered => ?_
        obtain ⟨branch, inBranches, rfl⟩ := List.mem_map.1 member
        have same := (types branch inBranches).1
        have shown : branch.1.type ≠ .numberArray := by rw [same]; decide
        have ofCondition := (ihBranches branch inBranches).1 lowered
          (typedBranches branch inBranches).1 shown (supplied branch inBranches).1
        rwa [same] at ofCondition
      have results : ∀ s ∈ outputs, s.HasType t.plan layout (ShaderType.of type) := by
        refine hasType_all ofResults fun result member s lowered => ?_
        obtain ⟨branch, inBranches, rfl⟩ := List.mem_map.1 member
        have same := (types branch inBranches).2
        rw [← same]
        exact (ihBranches branch inBranches).2 lowered (typedBranches branch inBranches).2
          (same ▸ shown) (supplied branch inBranches).2
      have ofOtherwise : otherwise.HasType t.plan layout (ShaderType.of type) := by
        rw [← sameType]
        exact ihFallback ofFallback typedFallback (sameType ▸ shown) suppliedFallback
      refine hasType_selections ofOtherwise fun branch member => ?_
      obtain ⟨inTests, inOutputs⟩ := List.of_mem_zip member
      exact ⟨conditions _ inTests, results _ inOutputs⟩

end Expr

/-! ## Shader values -/

omit [Scalar W] [Scalar N] [Precision W N] in
/-- Only the filter is applied while tessellating. -/
theorem Tier.eq_filter_of_cull {property : StyleProperty} {e : Expr W N}
    (tier : Tier.of property e = .cull) : property = .filter := by
  rw [Tier.of] at tier
  grind

namespace ParsedStyle

variable {style : ParsedStyle W N}

/-- A plan has attributes of the right types for what a property of a style needs. -/
structure Supplied (plan : Plan W N) (entry : StyleProperty × Expr W N) : Prop where
  inline : Tier.of entry.1 entry.2 = .inline → ∀ node ∈ entry.2.nodes, ∀ name type,
    node = .property name type → plan.Supplies name type
  preEvaluated : ∀ a, plan.evaluated? entry.1 = some a →
    a ∈ plan.attributes ∧ a.type = entry.1.type

omit [Precision W N] in
theorem supplied_of_requests {requests : List (AttributeRequest W N)}
    (made : style.requests = .ok requests) {entry : StyleProperty × Expr W N}
    (member : entry ∈ style.properties) : Supplied (Plan.ofRequests requests) entry where
  inline tier node inNodes name type read := by
    subst read
    obtain ⟨a, inPlan, carries, found⟩ := exists_planned made member tier inNodes
    intro unpacked planned
    exact ⟨a, inPlan, Option.some.inj (found.symm.trans planned), carries.type⟩
  preEvaluated a found := by
    have inPlan : a ∈ (Plan.ofRequests requests).attributes := List.mem_of_find?_eq_some found
    refine ⟨inPlan, ?_⟩
    obtain ⟨request, asked, carries⟩ := Plan.carries_of_mem inPlan
    have source := List.find?_some found
    rw [carries.source] at source
    rw [carries.type]
    cases asks_of_mem made asked with
    | property name type bounds => cases source
    | evaluated => exact congrArg StyleProperty.type (of_decide_eq_true source)

/-- The shader value of a property is well-typed in every layout grown from the one that is left. -/
theorem yields_typed {plan : Plan W N} {entry : StyleProperty × Expr W N}
    (ofType : entry.2.type = entry.1.type) (typed : entry.2.WellTyped style.environment)
    (planned : Planned plan entry) (supplied : Supplied plan entry) (layout : UniformLayout) :
    Yields (style.shaderValue plan entry.1 entry.2) layout fun final shader =>
      ∀ s, shader = some s → s.HasType plan final (ShaderType.of entry.1.type) := by
  have compiles := yields_shaderValue ofType typed planned layout
  cases tier : Tier.of entry.1 entry.2 with
  | uniform =>
    refine compiles.weaken fun final shader compiles s isValue => ?_
    obtain ⟨slot, member, -, value⟩ := compiles.uniform tier
    cases value.symm.trans isValue
    exact .uniform member _
  | inline =>
    refine compiles.weaken fun final shader compiles s isValue => ?_
    obtain ⟨lowered, ofTree, value⟩ := compiles.inline tier
    cases value.symm.trans isValue
    have shown : entry.2.type ≠ .numberArray := ofType ▸ entry.1.type_ne_numberArray
    rw [← ofType]
    exact Expr.hasType_lowered entry.2 ofTree typed shown (supplied.inline tier)
  | preEvaluated =>
    obtain ⟨a, found⟩ := planned.preEvaluated tier
    obtain ⟨member, sameType⟩ := supplied.preEvaluated a found
    simp only [shaderValue, tier, found]
    refine .pure fun final s isValue => ?_
    cases isValue
    rw [← sameType]
    exact .unpacked member
  | cull =>
    simp only [shaderValue, tier]
    refine .pure fun final s isValue => ?_
    cases isValue
    rw [Tier.eq_filter_of_cull tier]
    exact .bool true
  | cpuOnly =>
    simp only [shaderValue, tier]
    exact .pure fun final s isValue => nomatch isValue

theorem yields_compiledTyped (plan : Plan W N) {entries : List (StyleProperty × Expr W N)}
    (typed : ∀ entry ∈ entries, entry.2.type = entry.1.type ∧ entry.2.WellTyped style.environment)
    (planned : ∀ entry ∈ entries, Planned plan entry ∧ Supplied plan entry)
    (layout : UniformLayout) :
    Yields (style.compiledProperties plan entries) layout fun final compiled =>
      ∀ p ∈ compiled, ∀ s, p.shader = some s →
        s.HasType plan final (ShaderType.of p.property.type) := by
  induction entries generalizing layout with
  | nil => exact .pure fun _ _ member => nomatch member
  | cons entry rest ih =>
    obtain ⟨⟨ofType, typedFirst⟩, typedRest⟩ := List.forall_mem_cons.1 typed
    obtain ⟨⟨plannedFirst, suppliedFirst⟩, plannedRest⟩ := List.forall_mem_cons.1 planned
    rw [compiledProperties]
    refine (yields_typed ofType typedFirst plannedFirst suppliedFirst layout).bind
      fun shader after => (ih typedRest plannedRest after).bind fun compiled last => ?_
    exact .pure fun final ofRest ofFirst => List.forall_mem_cons.2 ⟨ofFirst, ofRest⟩

end ParsedStyle

namespace CompiledStyle

/-- What the programs of a compiled style are written from. -/
def programInputs (style : CompiledStyle W N) : ProgramInputs W N where
  header := s!"style {Digest.text style.hash}"
  plan := style.plan
  uniforms := style.uniforms
  values := style.properties.filterMap fun p => p.shader.map (p.property, ·)

end CompiledStyle

namespace ParsedStyle

variable {style : ParsedStyle W N}

/-- How a style was compiled: its properties in one run over the initial layout, against the plan
for its requests, and its programs from what came of this. -/
theorem run_of_lower {compiled : CompiledStyle W N} (ran : style.lower = .ok compiled) :
    ∃ requests, style.requests = .ok requests ∧ compiled.plan = Plan.ofRequests requests ∧
      (style.compiledProperties compiled.plan style.properties).run.run UniformLayout.initial =
        (.ok compiled.properties, compiled.uniforms) ∧
      ∀ program ∈ compiled.programs, program = compiled.programInputs.program program.kind := by
  unfold lower at ran
  obtain ⟨requests, made, ran⟩ := bind_eq_ok.1 ran
  obtain ⟨properties, given, ran⟩ := bind_eq_ok.1 ran
  rw [pure_eq_ok] at ran
  subst ran
  refine ⟨requests, made, rfl, Prod.ext given rfl, fun program member => ?_⟩
  obtain ⟨kind, -, rfl⟩ := List.mem_map.1 member
  rfl

/-- The shader values of a compiled style have the types of their properties. -/
theorem hasType_lower (sound : style.Sound) {compiled : CompiledStyle W N}
    (ran : style.lower = .ok compiled) :
    ∀ p ∈ compiled.properties, ∀ s, p.shader = some s →
      s.HasType compiled.plan compiled.uniforms (ShaderType.of p.property.type) := by
  obtain ⟨requests, made, planned, run, -⟩ := run_of_lower ran
  obtain ⟨properties, uniforms, again, -, typed⟩ := yields_compiledTyped compiled.plan
    sound.typed (fun entry member => planned ▸
      ⟨planned_of_requests made member, supplied_of_requests made member⟩) UniformLayout.initial
  cases run.symm.trans again
  exact typed _ (.refl _)

omit [Precision W N] in
/-- Unpacked attributes have names that start like those they are requested under. -/
theorem head?_unpackedName {requests : List (AttributeRequest W N)}
    (made : style.requests = .ok requests)
    {a : Attribute W N} (member : a ∈ (Plan.ofRequests requests).attributes) :
    a.unpackedName.toList.head? = some 'p' ∨ a.unpackedName.toList.head? = some 's' := by
  obtain ⟨front, opens, more, name⟩ :=
    Plan.exists_opening (fun request asked => (asks_of_mem made asked).standard) member
  rw [← name]
  simp only [AttributeRequest.openings, List.mem_cons, List.not_mem_nil, or_false] at opens
  rcases opens with rfl | rfl
  · exact .inl rfl
  · exact .inr rfl

omit [Precision W N] in
/-- The names of unpacked attributes differ from those the vertex stage binds for itself. -/
theorem not_mem_ownNames {requests : List (AttributeRequest W N)}
    (made : style.requests = .ok requests)
    {a : Attribute W N} (member : a ∈ (Plan.ofRequests requests).attributes) :
    a.unpackedName ∉ ProgramInputs.ownNames := by
  have own : ∀ name ∈ ProgramInputs.ownNames,
      ¬(name.toList.head? = some 'p' ∨ name.toList.head? = some 's') := by
    decide
  exact fun inOwn => own _ inOwn (head?_unpackedName made member)

end ParsedStyle

namespace CompiledStyle

/-- What a program writes for a property is well-typed, also where the style leaves it out. -/
theorem hasType_value {style : CompiledStyle W N}
    (typed : ∀ p ∈ style.properties, ∀ s, p.shader = some s →
      s.HasType style.plan style.uniforms (ShaderType.of p.property.type))
    (property : StyleProperty) :
    (style.programInputs.value property).HasType style.plan style.uniforms
      (ShaderType.of property.type) := by
  unfold ProgramInputs.value
  cases found : style.programInputs.values.lookup property with
  | some s =>
    obtain ⟨p, member, named⟩ := List.mem_filterMap.1 (mem_of_lookup found)
    obtain ⟨other, value, same⟩ := Option.map_eq_some_iff.1 named
    cases same
    exact typed p member s value
  | none =>
    have ofType : (property.default : Value W N).type = property.type := by cases property <;> rfl
    have shown : (property.default : Value W N).type ≠ .numberArray :=
      ofType ▸ property.type_ne_numberArray
    obtain ⟨s, constant⟩ := ShaderExpr.exists_ofValue? shown
    rw [Option.getD_none, constant, Option.getD_some, ← ofType]
    exact ShaderExpr.hasType_ofValue? constant

/-- Every shader value of a compiled style has the type of its property, as it is computed and by
the rules: names are those of attributes of the plan, read as what they are, and of declared
uniforms, and every node is typed like its operator or function demands. In the vertex source of
every program, each attribute is unpacked by one line, and what a line reads has been unpacked by
one line before it. -/
theorem shaders_wellTyped [Scalar.Ordered W] {spec : StyleSpec W N} {style : CompiledStyle W N}
    (compiled : ofSpec spec = .ok style) :
    (∀ p ∈ style.properties, ∀ s, p.shader = some s →
      s.type = ShaderType.of p.property.type ∧
        s.HasType style.plan style.uniforms (ShaderType.of p.property.type)) ∧
    ∀ program ∈ style.programs,
      program.vertexSource =
        SourceLine.source (style.programInputs.vertexStatements program.kind) ∧
      (∀ a ∈ style.plan.attributes, SourceLine.BoundOnce
        (style.programInputs.vertexStatements program.kind) a.unpackedName) ∧
      ∀ line ∈ style.programInputs.vertexStatements program.kind, ∀ name ∈ line.reads,
        SourceLine.BoundOnce (style.programInputs.vertexStatements program.kind) name := by
  obtain ⟨parsed, ofStyle, ran⟩ := bind_eq_ok.1 compiled
  have sound := ParsedStyle.sound_ofSpec ofStyle
  have typed := ParsedStyle.hasType_lower sound ran
  obtain ⟨requests, made, planned, -, programs⟩ := ParsedStyle.run_of_lower ran
  refine ⟨fun p member s value => ?_, fun program member => ⟨?_, ?_⟩⟩
  · have ofValue := typed p member s value
    exact ⟨ofValue.type_eq, ofValue⟩
  · rw [← ProgramInputs.vertexSource_eq, ← programs program member]
  · have bound (a : Attribute W N) (inPlan : a ∈ style.plan.attributes) : SourceLine.BoundOnce
        (style.programInputs.vertexStatements program.kind) a.unpackedName := by
      refine ProgramInputs.boundOnce_unpacked ?_ (fun other inPlan => ?_) program.kind inPlan
      · have distinct := Plan.nodup_names requests
        rwa [← planned] at distinct
      · exact ParsedStyle.not_mem_ownNames made (planned ▸ inPlan)
    refine ⟨bound, fun line inLines name read => ?_⟩
    obtain ⟨property, read⟩ := ProgramInputs.exists_value_of_reads inLines read
    obtain ⟨a, inPlan, rfl⟩ := (hasType_value typed property).exists_attribute name read
    exact bound a inPlan

/-- Roads that are twice as wide as they have lanes from some zoom on. -/
def lanesByZoom : StyleSpec Double Single :=
  { StyleSpec.empty with
    properties := Dictionary.empty.insert "stroke-width"
      (.array [.string "case", .array [.string ">", .array [.string "zoom"], .number (.integer 9)],
        .array [.string "*", .array [.string "get", .string "lanes"], .number (.integer 2)],
        .number (.integer 1)]) }

/-- The width reads one attribute, which the stroke program unpacks before. -/
theorem lanesByZoom_wellTyped :
    ∃ style p s program, ofSpec lanesByZoom = .ok style ∧ p ∈ style.properties ∧
      p.shader = some s ∧ s.unpackedNames = ["prop_lanes"] ∧ s.type = .float ∧
      s.HasType style.plan style.uniforms .float ∧ program ∈ style.programs ∧
      program.kind = .stroke ∧ SourceLine.BoundOnce
        (style.programInputs.vertexStatements .stroke) "prop_lanes" := by
  obtain ⟨style, p, s, program, a, compiled, member, value, reads, width, inPrograms, kind, inPlan,
      named⟩ :
      ∃ style p s program a, ofSpec lanesByZoom = .ok style ∧ p ∈ style.properties ∧
        p.shader = some s ∧ s.unpackedNames = ["prop_lanes"] ∧ p.property = .strokeWidth ∧
        program ∈ style.programs ∧ program.kind = .stroke ∧ a ∈ style.plan.attributes ∧
        a.unpackedName = "prop_lanes" := by
    exact ⟨_, _, _, _, _, rfl, List.mem_cons_self, rfl, by rfl, rfl, List.mem_cons_self, rfl,
      List.mem_cons_self, by rfl⟩
  obtain ⟨values, programs⟩ := shaders_wellTyped compiled
  obtain ⟨computed, typed⟩ := values p member s value
  obtain ⟨-, unpacked, -⟩ := programs program inPrograms
  rw [width] at computed typed
  refine ⟨style, p, s, program, compiled, member, value, reads, computed, typed, inPrograms, kind,
    ?_⟩
  rw [← named, ← kind]
  exact unpacked a inPlan

end CompiledStyle

end MapStyle
