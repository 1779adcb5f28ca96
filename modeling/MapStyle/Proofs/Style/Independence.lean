import MapStyle.Proofs.Style.Compiled

/-!
# What a value is independent of

The dependencies of a tree leave nothing out: contexts that agree on them give the tree one
result, be it a value or an error. A style relies on this twice. A property that is computed once
per draw is evaluated without a feature, and has there the value it has for every feature; and a
filter that is applied while a tile is built is not asked again when the frame changes.
-/

namespace MapStyle

variable {W N : Type}

/-- Two contexts agree on what is read: on the feature properties that are named, on the frame
where some of it is read, and where a host is called on the callbacks and all they can see. -/
structure Dependencies.Agree (reads : Dependencies) (c d : Context W N) : Prop where
  properties : ∀ read ∈ reads.properties, c.properties read.1 = d.properties read.1
  frame : reads.frame = true → c.zoom = d.zoom ∧ c.resolution = d.resolution ∧ c.time = d.time ∧
    ∀ name, c.bindings.get? name = d.bindings.get? name
  external : reads.external = true → c.externals = d.externals ∧ c.properties = d.properties

/-- Only a filter is applied while a tile is built, and only one that reads nothing of the
frame. -/
theorem Tier.still_of_cull {property : StyleProperty} {e : Expr W N}
    (tier : Tier.of property e = .cull) : property = .filter ∧ e.isFrameDependent = false := by
  rw [Tier.of] at tier
  grind

variable [Scalar W] [Scalar N] [Precision W N]

namespace Expr

/-- A read comes to the same in contexts that agree on what the tree around it reads. -/
theorem evaluate_read_of_agree {e : Expr W N} {c d : Context W N} (agree : e.dependencies.Agree c d)
    {node : Expr W N} (member : node ∈ e.nodes) (read : node.isRead = true) :
    node.evaluate c = node.evaluate d := by
  cases node with
  | property name type =>
    rw [evaluate, evaluate, readProperty, readProperty,
      agree.properties (name, type) (mem_dependencies.2 member)]
  | input source type =>
    obtain ⟨zoom, resolution, time, bindings⟩ :=
      agree.frame (List.any_eq_true.2 ⟨_, member, rfl⟩)
    cases source with
    | styleVariable name => simp only [evaluate, Context.read, bindings]
    | _ => simp only [evaluate, Context.read, zoom, resolution, time]
  | external id type =>
    obtain ⟨externals, properties⟩ := agree.external (List.any_eq_true.2 ⟨_, member, rfl⟩)
    rw [evaluate, evaluate, externals, properties]
  | _ => cases read

/-- Contexts that agree on the dependencies of a tree give it one result. -/
theorem evaluate_eq_of_agree {e : Expr W N} {c d : Context W N}
    (agree : e.dependencies.Agree c d) : e.evaluate c = e.evaluate d :=
  evaluate_congr e fun _ member read => evaluate_read_of_agree agree member read

end Expr

namespace ParsedStyle

variable {parsed : ParsedStyle W N}

/-- A property that is computed once per draw has one value for all features, and the uniform
block holds that value. -/
theorem evaluate_uniform (sound : parsed.Sound) {style : CompiledStyle W N}
    (ran : parsed.lower = .ok style) {p : CompiledProperty W N} (member : p ∈ style.properties)
    (tier : p.tier = .uniform) (c : Context W N) :
    ∃ value, value.type = p.property.type ∧
      (∀ properties, style.evaluate p.property { c with properties } = .ok value) ∧
      style.uniformValue { c with properties := noProperties } (.property p.property) =
        value.toVec4 := by
  obtain ⟨-, -, -, -, -, -, compiles⟩ := lower_eq_ok sound ran
  obtain ⟨entry, inStyle, compiled⟩ := exists_compiles compiles member
  obtain ⟨ofType, typed⟩ := sound.typed entry inStyle
  have shared := Tier.shared_of_uniform (compiled.tier.symm.trans tier)
  obtain ⟨value, given, sameType⟩ := Expr.exists_evaluate_shared typed shared c
  have found : style.property? p.property = some p := by
    refine CompiledStyle.property?_of_mem ?_ member
    rw [map_property_eq compiles]
    exact sound.distinct
  have everywhere (properties : Properties W N) :
      style.evaluate p.property { c with properties } = .ok value := by
    rw [CompiledStyle.evaluate, found, ← given, ← compiled.expr]
    exact (Expr.evaluate_shared (compiled.expr ▸ shared) c properties).symm
  refine ⟨value, ?_, everywhere, ?_⟩
  · rw [sameType, ofType, compiled.property]
  · simp only [CompiledStyle.uniformValue, everywhere]

/-- Whether a feature is drawn does not depend on the frame. -/
theorem passesFilter_congr (sound : parsed.Sound) {style : CompiledStyle W N}
    (ran : parsed.lower = .ok style) {c d : Context W N} (properties : c.properties = d.properties)
    (externals : c.externals = d.externals) : style.passesFilter c = style.passesFilter d := by
  unfold CompiledStyle.passesFilter
  split
  next filter found =>
    split
    next culls =>
      obtain ⟨-, -, -, -, -, -, compiles⟩ := lower_eq_ok sound ran
      obtain ⟨entry, -, compiled⟩ := exists_compiles compiles (List.mem_of_find?_eq_some found)
      obtain ⟨-, still⟩ := Tier.still_of_cull (compiled.tier.symm.trans culls)
      rw [← compiled.expr] at still
      have agree : filter.expr.dependencies.Agree c d := by
        refine ⟨fun read _ => by rw [properties], fun frame => ?_, fun _ => ⟨externals, properties⟩⟩
        rw [Expr.dependencies, still] at frame
        cases frame
      rw [Expr.evaluate_eq_of_agree agree]
    next => rfl
  next => rfl

end ParsedStyle

namespace CompiledStyle

/-- Dependencies are complete. A tree has one result, value or error, in all contexts that agree
on what it reads. Of a compiled style, every property that is computed once per draw therefore
has a value, the same for all features and for none, and the uniform block holds it; and the
filter leaves out the same features whatever the zoom, the resolution, the time and the
variables are. -/
theorem dependencies_complete [Scalar.Ordered W] :
    (∀ (e : Expr W N) (c d : Context W N), e.dependencies.Agree c d →
      e.evaluate c = e.evaluate d) ∧
    ∀ (spec : StyleSpec W N) (style : CompiledStyle W N), ofSpec spec = .ok style →
      (∀ p ∈ style.properties, p.tier = .uniform → ∀ c : Context W N,
        ∃ value, value.type = p.property.type ∧
          (∀ properties, style.evaluate p.property { c with properties } = .ok value) ∧
          style.uniformValue { c with properties := noProperties } (.property p.property) =
            value.toVec4) ∧
      (∀ p ∈ style.properties, p.tier = .cull → p.property = .filter) ∧
      ∀ (c : Context W N) (zoom resolution time : W) (bindings : Dictionary (Value W N)),
        style.passesFilter { c with zoom, resolution, time, bindings } = style.passesFilter c := by
  refine ⟨fun e c d => Expr.evaluate_eq_of_agree, fun spec style compiled => ?_⟩
  obtain ⟨parsed, ofStyle, ran⟩ := bind_eq_ok.1 compiled
  have sound := ParsedStyle.sound_ofSpec ofStyle
  refine ⟨fun p member tier c => ParsedStyle.evaluate_uniform sound ran member tier c,
    fun p member tier => ?_,
    fun c zoom resolution time bindings => ParsedStyle.passesFilter_congr sound ran rfl rfl⟩
  obtain ⟨-, -, -, -, -, -, compiles⟩ := ParsedStyle.lower_eq_ok sound ran
  obtain ⟨entry, -, compiled⟩ := ParsedStyle.exists_compiles compiles member
  rw [compiled.property]
  exact (Tier.still_of_cull (compiled.tier.symm.trans tier)).1

/-- Roads only, as wide as the zoom says. -/
def roadsByZoom : StyleSpec Double Single :=
  { StyleSpec.empty with
    properties := (Dictionary.empty.insert "filter"
      (.array [.string "==", .array [.string "get", .string "class"], .string "road"])).insert
      "stroke-width" (.array [.string "*", .array [.string "zoom"], .number (.integer 2)]) }

/-- A road with a name, in a frame at the least zoom. -/
def namedRoad (name : String) : Context Double Single where
  properties property := if property = "class" then some (.string "road") else
    if property = "name" then some (.string name) else none
  bindings := .empty
  externals := .empty
  zoom := Scalar.zero
  resolution := Scalar.one
  time := Scalar.zero

/-- The filter reads the class of a feature and not its name, the width is that of the frame, and
a greater zoom makes no other selection. -/
theorem roadsByZoom_independent :
    ∃ style filter width value, ofSpec roadsByZoom = .ok style ∧ filter ∈ style.properties ∧
      filter.tier = .cull ∧ filter.expr.dependencies.properties = [("class", .string)] ∧
      filter.expr.evaluate (namedRoad "a") = filter.expr.evaluate (namedRoad "b") ∧
      width ∈ style.properties ∧ width.tier = .uniform ∧ width.property = .strokeWidth ∧
      style.evaluate .strokeWidth (namedRoad "a") = .ok value ∧
      style.evaluate .strokeWidth (namedRoad "b") = .ok value ∧
      style.uniformValue { namedRoad "a" with properties := noProperties }
        (.property .strokeWidth) = value.toVec4 ∧
      style.passesFilter { namedRoad "a" with zoom := Scalar.one } =
        style.passesFilter (namedRoad "a") ∧
      style.passesFilter (namedRoad "a") = .ok true := by
  obtain ⟨style, filter, width, compiled, inStyle, culls, reads, inStyle', uniform, named,
      passes⟩ :
      ∃ style filter width, ofSpec roadsByZoom = .ok style ∧ filter ∈ style.properties ∧
        filter.tier = .cull ∧
        filter.expr.dependencies = ⟨[("class", .string)], false, false, 0, false⟩ ∧
        width ∈ style.properties ∧ width.tier = .uniform ∧ width.property = .strokeWidth ∧
        style.passesFilter (namedRoad "a") = .ok true :=
    ⟨_, _, _, rfl, List.mem_cons_self, rfl, rfl,
      List.mem_cons_of_mem _ List.mem_cons_self, rfl, rfl, by rfl⟩
  obtain ⟨ofTree, ofStyle⟩ := dependencies_complete (W := Double) (N := Single)
  obtain ⟨ofUniform, -, ofFilter⟩ := ofStyle roadsByZoom style compiled
  obtain ⟨value, -, everywhere, held⟩ := ofUniform width inStyle' uniform (namedRoad "a")
  have agree : filter.expr.dependencies.Agree (namedRoad "a") (namedRoad "b") := by
    rw [reads]
    refine ⟨fun read member => ?_, fun frame => (nomatch frame), fun host => (nomatch host)⟩
    rw [List.mem_singleton.1 member]
    rfl
  rw [named] at everywhere held
  exact ⟨style, filter, width, value, compiled, inStyle, culls, by rw [reads],
    ofTree _ _ _ agree, inStyle', uniform, named, everywhere (namedRoad "a").properties,
    everywhere (namedRoad "b").properties, held,
    ofFilter (namedRoad "a") Scalar.one (namedRoad "a").resolution (namedRoad "a").time
      (namedRoad "a").bindings, passes⟩

end CompiledStyle

end MapStyle
