import MapStyle.Proofs.Style.Redeclaration
import MapStyle.Proofs.Style.Scope
import MapStyle.Proofs.Style.Sources

/-!
# Overrides of style variables

A frame may give style variables other values than their defaults. Such an override counts in the
type of the default and under a declared name; any other one is as if it were not there. With the
overrides that count, the uniform block holds what it would hold if they were the defaults, and
every slot of it holds a value that was given or computed: no evaluation fails.
-/

namespace MapStyle

variable {W N : Type} [Scalar W] [Scalar N] [Precision W N]

namespace Frame

/-- The frame with those of its overrides that count for some defaults: they have the name of a
default and can be coerced to its type. -/
def admitted (frame : Frame W N) (bindings : Dictionary (Value W N)) : Frame W N :=
  { frame with
    bindings := frame.bindings.filter fun name override =>
      match bindings.get? name with
      | some default => (override.coerce? default.type).isSome
      | none => false }

/-- The frame without overrides. -/
def plain (frame : Frame W N) : Frame W N := { frame with bindings := .empty }

/-- Defaults with what a frame makes of them in their place. -/
def overridden (frame : Frame W N) (bindings : Dictionary (Value W N)) :
    Dictionary (Value W N) :=
  bindings.map frame.valueFor

theorem valueFor_admitted (frame : Frame W N) {bindings : Dictionary (Value W N)} {name : String}
    {default : Value W N} (declared : bindings.get? name = some default) :
    (frame.admitted bindings).valueFor name default = frame.valueFor name default := by
  have passes : (fun override : Value W N => match bindings.get? name with
      | some default => (override.coerce? default.type).isSome
      | none => false) = fun override => (override.coerce? default.type).isSome := by
    rw [declared]
  unfold valueFor admitted
  rw [Dictionary.get?_filter, passes]
  cases frame.bindings.get? name with
  | none => rfl
  | some override =>
    rw [Option.filter_some]
    cases coerced : override.coerce? default.type with
    | some value => simp [coerced]
    | none => simp [coerced]

theorem valueFor_plain (frame : Frame W N) (name : String) (default : Value W N) :
    frame.plain.valueFor name default = default := rfl

end Frame

namespace CompiledStyle

/-- What the uniform block holds for a source in a frame: the inputs of the frame, what it makes
of the variables that are declared, and the values of the properties that are computed once per
draw. -/
inductive Shows (style : CompiledStyle W N) (frame : Frame W N) : UniformSource → Vec4 N → Prop
  | zoom : Shows style frame (.frame .zoom) (.ofScalar (narrow frame.zoom))
  | resolution : Shows style frame (.frame .resolution) (.ofScalar (narrow frame.resolution))
  | time : Shows style frame (.frame .time) (.ofScalar (narrow frame.time))
  | styleVariable {name : String} {default : Value W N}
      (declared : style.bindings.get? name = some default) :
      Shows style frame (.frame (.styleVariable name)) (frame.valueFor name default).toVec4
  | property {p : CompiledProperty W N} {value : Value W N} (member : p ∈ style.properties)
      (tier : p.tier = .uniform) (given : p.expr.evaluate (style.frameContext frame) = .ok value)
      (ofType : value.type = p.property.type) :
      Shows style frame (.property p.property) value.toVec4

end CompiledStyle

namespace ParsedStyle

variable {parsed : ParsedStyle W N} {style : CompiledStyle W N}

/-- What is computed once per draw was compiled, is found, and has a value in every context. -/
theorem exists_uniform (sound : parsed.Sound) (ran : parsed.lower = .ok style)
    {entry : StyleProperty × Expr W N} (member : entry ∈ parsed.properties)
    (tier : Tier.of entry.1 entry.2 = .uniform) :
    ∃ p ∈ style.properties, p.property = entry.1 ∧ p.expr = entry.2 ∧ p.tier = .uniform ∧
      style.property? entry.1 = some p ∧
      ∀ c : Context W N, ∃ value, p.expr.evaluate c = .ok value ∧ value.type = entry.1.type := by
  obtain ⟨-, -, -, -, -, -, compiles⟩ := lower_eq_ok sound ran
  obtain ⟨p, inStyle, compiled⟩ := exists_compiled compiles member
  obtain ⟨ofType, typed⟩ := sound.typed entry member
  have found : style.property? p.property = some p := by
    refine CompiledStyle.property?_of_mem ?_ inStyle
    rw [map_property_eq compiles]
    exact sound.distinct
  refine ⟨p, inStyle, compiled.property, compiled.expr, compiled.tier.trans tier,
    compiled.property ▸ found, fun c => ?_⟩
  rw [compiled.expr, ← ofType]
  exact Expr.exists_evaluate_shared typed (Tier.shared_of_uniform tier) c

/-- Whatever a style may fill a uniform from shows what it is in the frame. -/
theorem shows_of_fills (sound : parsed.Sound) (ran : parsed.lower = .ok style) (frame : Frame W N)
    {source : UniformSource} (fills : parsed.Fills source) :
    style.Shows frame source (style.uniformValue (style.frameContext frame) source) := by
  obtain ⟨-, -, -, bindings, -, -, -⟩ := lower_eq_ok sound ran
  cases fills with
  | @frame source type declared =>
    cases source with
    | zoom => exact .zoom
    | resolution => exact .resolution
    | time => exact .time
    | styleVariable name =>
      obtain ⟨default, bound, -⟩ := Option.map_eq_some_iff.1 declared
      have declared : style.bindings.get? name = some default := bindings ▸ bound
      have value := style.get?_frameVariables frame name
      rw [declared] at value
      simp only [CompiledStyle.uniformValue, CompiledStyle.frameContext, value]
      exact .styleVariable declared
  | property inStyle tier =>
    obtain ⟨p, inCompiled, named, -, uniform, found, valued⟩ :=
      exists_uniform sound ran inStyle tier
    obtain ⟨value, given, ofType⟩ := valued (style.frameContext frame)
    simp only [CompiledStyle.uniformValue, CompiledStyle.evaluate, found, given]
    rw [← named] at ofType ⊢
    exact .property inCompiled uniform given ofType

/-- Two compiled styles with the same properties give a source the same value in two frames that
have the same inputs and make the same of the variables that are declared. -/
theorem uniformValue_congr (sound : parsed.Sound) (ran : parsed.lower = .ok style)
    {other : CompiledStyle W N} (properties : other.properties = style.properties)
    {frame frame' : Frame W N} (zoom : frame'.zoom = frame.zoom)
    (resolution : frame'.resolution = frame.resolution) (time : frame'.time = frame.time)
    (alike : ∀ name default, style.bindings.get? name = some default →
      (other.frameVariables frame').get? name = (style.frameVariables frame).get? name)
    {source : UniformSource} (fills : parsed.Fills source) :
    other.uniformValue (other.frameContext frame') source =
      style.uniformValue (style.frameContext frame) source := by
  obtain ⟨-, -, -, bindings, -, -, -⟩ := lower_eq_ok sound ran
  cases fills with
  | @frame source type declared =>
    cases source with
    | zoom => simp only [CompiledStyle.uniformValue, CompiledStyle.frameContext, zoom]
    | resolution => simp only [CompiledStyle.uniformValue, CompiledStyle.frameContext, resolution]
    | time => simp only [CompiledStyle.uniformValue, CompiledStyle.frameContext, time]
    | styleVariable name =>
      obtain ⟨default, bound, -⟩ := Option.map_eq_some_iff.1 declared
      simp only [CompiledStyle.uniformValue, CompiledStyle.frameContext,
        alike name default (bindings ▸ bound)]
  | @property entry inStyle tier =>
    obtain ⟨p, -, -, expr, -, found, -⟩ := exists_uniform sound ran inStyle tier
    have found' : other.property? entry.1 = some p := by
      rw [← found, CompiledStyle.property?, properties, CompiledStyle.property?]
    have same : p.expr.evaluate (other.frameContext frame') =
        p.expr.evaluate (style.frameContext frame) := by
      refine Expr.evaluate_congr p.expr fun node inNodes read => ?_
      rw [expr] at inNodes
      have ofFrame := Expr.isInput_of_isRead (Tier.shared_of_uniform tier) inNodes read
      cases node with
      | input source type =>
        cases source with
        | styleVariable name =>
          have typed := ((sound.typed entry inStyle).2.node inNodes).respects
          obtain ⟨default, bound, -⟩ := Option.map_eq_some_iff.1 typed
          simp only [Expr.evaluate, Context.read, CompiledStyle.frameContext,
            alike name default (bindings ▸ bound)]
        | _ => simp only [Expr.evaluate, Context.read, CompiledStyle.frameContext, zoom,
            resolution, time]
      | _ => cases ofFrame
    simp only [CompiledStyle.uniformValue, CompiledStyle.evaluate, found, found', same]

/-- With the same uniforms too, all of the block is the same. -/
theorem uniformValues_congr (sound : parsed.Sound) (ran : parsed.lower = .ok style)
    {other : CompiledStyle W N} (properties : other.properties = style.properties)
    (uniforms : other.uniforms = style.uniforms) {frame frame' : Frame W N}
    (zoom : frame'.zoom = frame.zoom) (resolution : frame'.resolution = frame.resolution)
    (time : frame'.time = frame.time)
    (alike : ∀ name default, style.bindings.get? name = some default →
      (other.frameVariables frame').get? name = (style.frameVariables frame).get? name) :
    other.uniformValues frame' = style.uniformValues frame := by
  unfold CompiledStyle.uniformValues
  rw [uniforms]
  exact List.map_congr_left fun slot member =>
    uniformValue_congr sound ran properties zoom resolution time alike
      (fills_of_mem sound ran member)

end ParsedStyle

namespace CompiledStyle

/-- Overrides are typed and scoped. The uniform block holds, slot by slot, what the source of the
slot is in the frame, and no property falls back to its default. Overrides of names that are not
declared, or of other types than the defaults can take, change nothing; and the others are as if
they were the defaults of the style, be it of the compiled style or of the specification it is
compiled from. -/
theorem overrides_scoped [Scalar.Ordered W] {spec : StyleSpec W N} {style : CompiledStyle W N}
    (compiled : ofSpec spec = .ok style) (frame : Frame W N) :
    List.Forall₂ (fun slot vector => style.Shows frame slot.source vector) style.uniforms.slots
      (style.uniformValues frame) ∧
    style.uniformValues (frame.admitted style.bindings) = style.uniformValues frame ∧
    uniformValues { style with bindings := frame.overridden style.bindings } frame.plain =
      style.uniformValues (frame.admitted style.bindings) ∧
    ∀ spec' : StyleSpec W N, spec'.properties = spec.properties → spec'.schema = spec.schema →
      spec'.externals = spec.externals →
      spec'.variableValues = .ok (frame.overridden style.bindings) →
      ∃ style', ofSpec spec' = .ok style' ∧ style'.uniforms = style.uniforms ∧
        style'.bindings = frame.overridden style.bindings ∧
        style'.uniformValues frame.plain = style.uniformValues (frame.admitted style.bindings) := by
  obtain ⟨parsed, ofStyle, ran⟩ := bind_eq_ok.1 compiled
  have sound := ParsedStyle.sound_ofSpec ofStyle
  obtain ⟨-, -, -, bindings, -, -, -⟩ := ParsedStyle.lower_eq_ok sound ran
  have admitted : style.uniformValues (frame.admitted style.bindings) =
      style.uniformValues frame := by
    refine ParsedStyle.uniformValues_congr sound ran rfl rfl rfl rfl rfl
      fun name default declared => ?_
    rw [get?_frameVariables, get?_frameVariables, declared]
    exact congrArg some (frame.valueFor_admitted declared)
  have redeclared (other : CompiledStyle W N) (properties : other.properties = style.properties)
      (uniforms : other.uniforms = style.uniforms)
      (defaults : other.bindings = frame.overridden style.bindings) :
      other.uniformValues frame.plain = style.uniformValues (frame.admitted style.bindings) := by
    rw [admitted]
    refine ParsedStyle.uniformValues_congr sound ran properties uniforms rfl rfl rfl
      fun name default declared => ?_
    rw [get?_frameVariables, get?_frameVariables, declared, defaults, Frame.overridden,
      Dictionary.get?_map, declared]
    exact congrArg some (frame.valueFor_plain name _)
  refine ⟨?_, admitted, redeclared _ rfl rfl rfl, ?_⟩
  · rw [uniformValues, List.forall₂_map_right_iff, List.forall₂_same]
    exact fun slot member =>
      ParsedStyle.shows_of_fills sound ran frame (ParsedStyle.fills_of_mem sound ran member)
  · intro spec' properties schema externals declared
    have types (name : String) :
        ((frame.overridden style.bindings).get? name).map Value.type =
          (parsed.bindings.get? name).map Value.type := by
      rw [Frame.overridden, Dictionary.get?_map, bindings, Option.map_map]
      cases parsed.bindings.get? name with
      | none => rfl
      | some default => exact congrArg some (frame.type_valueFor name default)
    obtain ⟨style', ran', sameProperties, -, sameUniforms, sameBindings, -⟩ :=
      parsed.lower_redeclared (frame.overridden style.bindings) ran
    refine ⟨style', bind_eq_ok.2 ⟨_, ?_, ran'⟩, sameUniforms, sameBindings,
      redeclared style' sameProperties sameUniforms sameBindings⟩
    exact ParsedStyle.ofSpec_redeclared parsed _ ofStyle properties schema externals declared types

/-- Lines in a color that is a variable, and twice as wide as another variable says. -/
def variableRoads (tone : String) : StyleSpec Double Single :=
  { StyleSpec.empty with
    properties := (Dictionary.empty.insert "stroke-color"
      (.array [.string "var", .string "tone"])).insert "stroke-width"
      (.array [.string "*", .array [.string "var", .string "width"], .number (.integer 2)])
    bindings := (Dictionary.empty.insert "tone" (.string tone)).insert "width"
      (.number (.integer 3)) }

/-- A frame with a tone that is a text, a width that is none, and a name that no style declares. -/
def darkFrame : Frame Double Single where
  projection := Frame.identity
  zoom := Scalar.one
  resolution := Scalar.one
  time := Scalar.zero
  bindings := ((Dictionary.empty.insert "tone" (.string "#102030")).insert "width"
    (.string "wide")).insert "season" (.number Scalar.one)

theorem variableRoads_compiled :
    ∃ style, ofSpec (variableRoads "#ffffff") = .ok style ∧
      (darkFrame.admitted style.bindings).bindings.entries.map Prod.fst = ["tone"] ∧
      (variableRoads "#102030").variableValues = .ok (darkFrame.overridden style.bindings) := by
  have outcome : (match ofSpec (variableRoads "#ffffff"),
        (variableRoads "#102030").variableValues with
      | .ok style, .ok bindings =>
        decide ((darkFrame.admitted style.bindings).bindings.entries.map Prod.fst = ["tone"] ∧
          bindings.entries = (darkFrame.overridden style.bindings).entries)
      | _, _ => false) = true := by decide +kernel
  split at outcome
  next style bindings compiled declared =>
    obtain ⟨kept, same⟩ := of_decide_eq_true outcome
    rw [Dictionary.eq_of_entries same] at declared
    exact ⟨style, compiled, kept, declared⟩
  next => cases outcome

/-- Only the tone counts, as the color it denotes; and the style whose tone is that color shows
the same without any override. -/
theorem variableRoads_redeclared :
    ∃ style style', ofSpec (variableRoads "#ffffff") = .ok style ∧
      (darkFrame.admitted style.bindings).bindings.entries.map Prod.fst = ["tone"] ∧
      style.uniformValues (darkFrame.admitted style.bindings) = style.uniformValues darkFrame ∧
      ofSpec (variableRoads "#102030") = .ok style' ∧
      style'.bindings = darkFrame.overridden style.bindings ∧
      style'.uniformValues darkFrame.plain =
        style.uniformValues (darkFrame.admitted style.bindings) := by
  obtain ⟨style, compiled, kept, declared⟩ := variableRoads_compiled
  obtain ⟨-, admitted, -, redeclared⟩ := overrides_scoped compiled darkFrame
  obtain ⟨style', compiled', -, defaults, same⟩ :=
    redeclared (variableRoads "#102030") rfl rfl rfl declared
  exact ⟨style, style', compiled, kept, admitted, compiled', defaults, same⟩

end CompiledStyle

end MapStyle
