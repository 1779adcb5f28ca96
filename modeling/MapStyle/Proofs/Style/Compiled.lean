import MapStyle.Proofs.Style.Lowering
import MapStyle.Proofs.Style.Parsed
import MapStyle.Proofs.Style.Requests

/-!
# What compiling a style establishes

A style whose requests agree always compiles: lowering its properties cannot fail any more.
The compiled style has one plan and one layout, and with respect to these two every property
that the shader computes was lowered as `Expr.Lowered` says.
-/

namespace MapStyle

variable {W N : Type} [Scalar W] [Scalar N] [Precision W N]

namespace ParsedStyle

/-- The target against which the expression of a property is lowered. -/
def target (style : ParsedStyle W N) (plan : Plan W N) (property : StyleProperty) : Target W N :=
  ⟨property.name, plan, style.bindings, style.externals⟩

/-- What compiling makes of a property, when the uniforms have these slots. -/
structure Compiles (style : ParsedStyle W N) (plan : Plan W N) (layout : UniformLayout)
    (entry : StyleProperty × Expr W N) (compiled : CompiledProperty W N) : Prop where
  property : compiled.property = entry.1
  expr : compiled.expr = entry.2
  tier : compiled.tier = Tier.of entry.1 entry.2
  uniform : compiled.tier = .uniform → ∃ slot ∈ layout.slots, slot.source = .property entry.1 ∧
    compiled.shader = some (.uniform slot.name (ShaderType.of entry.1.type))
  inline : compiled.tier = .inline → ∃ s, entry.2.Lowered (style.target plan entry.1) layout s ∧
    compiled.shader = some s

/-- The properties of a style have in a plan what their tiers need. -/
structure Planned (plan : Plan W N) (entry : StyleProperty × Expr W N) : Prop where
  inline : Tier.of entry.1 entry.2 = .inline → ∀ node ∈ entry.2.nodes, ∀ name type,
    node = .property name type → ∃ unpacked, plan.unpackedProperty? name = some unpacked
  preEvaluated : Tier.of entry.1 entry.2 = .preEvaluated →
    ∃ a, plan.evaluated? entry.1 = some a

variable {style : ParsedStyle W N}

theorem yields_shaderValue {plan : Plan W N} {entry : StyleProperty × Expr W N}
    (ofType : entry.2.type = entry.1.type) (typed : entry.2.WellTyped style.environment)
    (planned : Planned plan entry) (layout : UniformLayout) :
    Yields (style.shaderValue plan entry.1 entry.2) layout fun final shader =>
      style.Compiles plan final entry ⟨entry.1, entry.2, Tier.of entry.1 entry.2, shader⟩ := by
  unfold shaderValue
  split
  next tier =>
    let slot : UniformSlot :=
      ⟨"u_" ++ entry.1.identifier, ShaderType.of entry.1.type, .property entry.1⟩
    obtain ⟨declared, member, filled, named⟩ := layout.exists_declared slot
    refine ⟨_, (layout.declare slot).1, rfl, layout.extends_declare slot, fun final later => ?_⟩
    refine ⟨rfl, rfl, rfl, fun _ => ⟨declared, later.mem member, filled, ?_⟩, fun other => ?_⟩
    · rw [named]
      rfl
    · rw [show Tier.of entry.1 entry.2 = .inline from other] at tier
      cases tier
  next tier =>
    have shown : entry.2.type ≠ .numberArray := ofType ▸ entry.1.type_ne_numberArray
    refine (Expr.yields_lower entry.2 typed shown (planned.inline tier)
      (Tier.hostless_of_inline tier) layout).bind fun s after => .pure fun final lowered => ?_
    refine ⟨rfl, rfl, rfl, fun other => ?_, fun _ => ⟨s, lowered, rfl⟩⟩
    rw [show Tier.of entry.1 entry.2 = .uniform from other] at tier
    cases tier
  next tier =>
    obtain ⟨a, found⟩ := planned.preEvaluated tier
    rw [found]
    refine .pure fun final => ⟨rfl, rfl, rfl, fun other => ?_, fun other => ?_⟩
    · rw [show Tier.of entry.1 entry.2 = .uniform from other] at tier
      cases tier
    · rw [show Tier.of entry.1 entry.2 = .inline from other] at tier
      cases tier
  all_goals
    next tier =>
      refine .pure fun final => ⟨rfl, rfl, rfl, fun other => ?_, fun other => ?_⟩
      · rw [show Tier.of entry.1 entry.2 = .uniform from other] at tier
        cases tier
      · rw [show Tier.of entry.1 entry.2 = .inline from other] at tier
        cases tier

theorem yields_compiledProperties {plan : Plan W N} {entries : List (StyleProperty × Expr W N)}
    (typed : ∀ entry ∈ entries, entry.2.type = entry.1.type ∧ entry.2.WellTyped style.environment)
    (planned : ∀ entry ∈ entries, Planned plan entry) (layout : UniformLayout) :
    Yields (style.compiledProperties plan entries) layout fun final compiled =>
      List.Forall₂ (style.Compiles plan final) entries compiled := by
  induction entries generalizing layout with
  | nil => exact .pure fun _ => .nil
  | cons entry rest ih =>
    obtain ⟨⟨ofType, typedFirst⟩, typedRest⟩ := List.forall_mem_cons.1 typed
    obtain ⟨plannedFirst, plannedRest⟩ := List.forall_mem_cons.1 planned
    rw [compiledProperties]
    refine (yields_shaderValue ofType typedFirst plannedFirst layout).bind fun shader after => ?_
    refine (ih typedRest plannedRest after).bind fun compiled last => ?_
    exact .pure fun final ofRest ofFirst => .cons ofFirst ofRest

omit [Precision W N] in
theorem planned_of_requests {requests : List (AttributeRequest W N)}
    (made : style.requests = .ok requests) {entry : StyleProperty × Expr W N}
    (member : entry ∈ style.properties) : Planned (Plan.ofRequests requests) entry where
  inline tier node inNodes name type read := by
    subst read
    obtain ⟨a, -, -, found⟩ := exists_planned made member tier inNodes
    exact ⟨a.unpackedName, found⟩
  preEvaluated tier := exists_evaluatedAhead made member tier

/-- A style whose requests agree compiles. -/
theorem exists_lower (sound : style.Sound) {requests : List (AttributeRequest W N)}
    (made : style.requests = .ok requests) :
    ∃ compiled, style.lower = .ok compiled ∧ compiled.plan = Plan.ofRequests requests ∧
      compiled.bindings = style.bindings ∧ compiled.externals = style.externals ∧
      UniformLayout.initial.Extends compiled.uniforms ∧
      List.Forall₂ (style.Compiles compiled.plan compiled.uniforms) style.properties
        compiled.properties := by
  obtain ⟨properties, uniforms, ran, grown, kept⟩ :=
    yields_compiledProperties sound.typed (fun entry member => planned_of_requests made member)
      UniformLayout.initial
  cases outcome : style.lower with
  | ok compiled =>
    unfold lower at outcome
    simp only [made, ran, bind, Except.bind, pure, Except.pure] at outcome
    cases outcome
    exact ⟨_, rfl, rfl, rfl, rfl, grown, kept uniforms (.refl _)⟩
  | error e =>
    unfold lower at outcome
    simp only [made, ran, bind, Except.bind, pure, Except.pure] at outcome
    cases outcome

/-- A compiled style keeps the digest of the style it was compiled from. -/
theorem hash_lower {compiled : CompiledStyle W N} (ran : style.lower = .ok compiled) :
    compiled.hash = style.hash := by
  unfold lower at ran
  obtain ⟨requests, -, ran⟩ := bind_eq_ok.1 ran
  obtain ⟨properties, -, ran⟩ := bind_eq_ok.1 ran
  cases ran
  rfl

theorem requests_of_lower {compiled : CompiledStyle W N} (ran : style.lower = .ok compiled) :
    ∃ requests, style.requests = .ok requests := by
  unfold lower at ran
  obtain ⟨requests, made, -⟩ := bind_eq_ok.1 ran
  exact ⟨requests, made⟩

/-- What a style has compiled to. -/
theorem lower_eq_ok (sound : style.Sound) {compiled : CompiledStyle W N}
    (ran : style.lower = .ok compiled) :
    ∃ requests, style.requests = .ok requests ∧ compiled.plan = Plan.ofRequests requests ∧
      compiled.bindings = style.bindings ∧ compiled.externals = style.externals ∧
      UniformLayout.initial.Extends compiled.uniforms ∧
      List.Forall₂ (style.Compiles compiled.plan compiled.uniforms) style.properties
        compiled.properties := by
  obtain ⟨requests, made⟩ := requests_of_lower ran
  obtain ⟨other, ranAgain, established⟩ := exists_lower sound made
  obtain rfl : other = compiled := Except.ok.inj (ranAgain.symm.trans ran)
  exact ⟨requests, made, established⟩

/-- The compiled properties are those of the style, in their order. -/
theorem map_property_eq {plan : Plan W N} {layout : UniformLayout}
    {entries : List (StyleProperty × Expr W N)} {compiled : List (CompiledProperty W N)}
    (compiles : List.Forall₂ (style.Compiles plan layout) entries compiled) :
    compiled.map CompiledProperty.property = entries.map Prod.fst := by
  induction compiles with
  | nil => rfl
  | cons first rest ih => rw [List.map_cons, List.map_cons, ih, first.property]

/-- A compiled property is what some property of the style was compiled to. -/
theorem exists_compiles {plan : Plan W N} {layout : UniformLayout}
    {entries : List (StyleProperty × Expr W N)} {compiled : List (CompiledProperty W N)}
    (compiles : List.Forall₂ (style.Compiles plan layout) entries compiled)
    {p : CompiledProperty W N} (member : p ∈ compiled) :
    ∃ entry ∈ entries, style.Compiles plan layout entry p := by
  induction compiles with
  | nil => cases member
  | cons first rest ih =>
    rcases List.mem_cons.1 member with rfl | later
    · exact ⟨_, List.mem_cons_self, first⟩
    · obtain ⟨entry, inRest, compiles⟩ := ih later
      exact ⟨entry, List.mem_cons_of_mem _ inRest, compiles⟩

/-- A property of the style is compiled to some compiled property. -/
theorem exists_compiled {plan : Plan W N} {layout : UniformLayout}
    {entries : List (StyleProperty × Expr W N)} {compiled : List (CompiledProperty W N)}
    (compiles : List.Forall₂ (style.Compiles plan layout) entries compiled)
    {entry : StyleProperty × Expr W N} (member : entry ∈ entries) :
    ∃ p ∈ compiled, style.Compiles plan layout entry p := by
  induction compiles with
  | nil => cases member
  | cons first rest ih =>
    rcases List.mem_cons.1 member with rfl | later
    · exact ⟨_, List.mem_cons_self, first⟩
    · obtain ⟨p, inRest, compiles⟩ := ih later
      exact ⟨p, List.mem_cons_of_mem _ inRest, compiles⟩

/-- Looking a property up finds the expression it was compiled from. -/
theorem map_expr_find?_eq {plan : Plan W N} {layout : UniformLayout}
    {entries : List (StyleProperty × Expr W N)} {compiled : List (CompiledProperty W N)}
    (compiles : List.Forall₂ (style.Compiles plan layout) entries compiled)
    (property : StyleProperty) :
    (compiled.find? (·.property = property)).map CompiledProperty.expr =
      (entries.find? (·.1 = property)).map Prod.snd := by
  induction compiles with
  | nil => rfl
  | cons first rest ih =>
    rw [List.find?_cons, List.find?_cons, first.property]
    split
    next => exact congrArg some first.expr
    next => exact ih

/-- A compiled style evaluates the expressions of the style, and defaults for the rest. -/
theorem evaluate_lower (sound : style.Sound) {compiled : CompiledStyle W N}
    (ran : style.lower = .ok compiled) (property : StyleProperty) (c : Context W N) :
    compiled.evaluate property c =
      ((style.properties.find? (·.1 = property)).map Prod.snd).elim (.ok property.default)
        fun e => e.evaluate c := by
  obtain ⟨-, -, -, -, -, -, compiles⟩ := lower_eq_ok sound ran
  rw [← map_expr_find?_eq compiles, CompiledStyle.evaluate, CompiledStyle.property?]
  cases compiled.properties.find? (·.property = property) with
  | none => rfl
  | some p => rfl

end ParsedStyle

omit [Scalar W] [Scalar N] [Precision W N] in
/-- A property that occurs once is found. -/
theorem CompiledStyle.property?_of_mem {style : CompiledStyle W N}
    (distinct : (style.properties.map CompiledProperty.property).Nodup) {p : CompiledProperty W N}
    (member : p ∈ style.properties) : style.property? p.property = some p := by
  obtain ⟨before, after, split⟩ := List.append_of_mem member
  refine List.find?_eq_some_iff_append.2 ⟨by simp, before, after, split, ?_⟩
  intro other earlier
  rw [split, List.map_append, List.nodup_append] at distinct
  have apart := distinct.2.2 other.property (List.mem_map_of_mem earlier) p.property (by simp)
  simpa using apart

end MapStyle
