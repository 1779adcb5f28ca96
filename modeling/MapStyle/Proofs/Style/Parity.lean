import MapStyle.Proofs.Packing.RoundTrip
import MapStyle.Proofs.Style.Scope
import MapStyle.Proofs.Style.Simulation

/-!
# The shader computes what the interpreter does

Over exact numbers, the shader value of every property that is computed once per draw or in the
vertex stage evaluates, in the scope of a feature and a frame, to the image of what the
interpreter makes of the property. The feature has to be one whose values its attributes can
hold, and the strings it is compared with have to have different numbers. The limits of the
attributes are real: a number that no range is declared for is packed into the range of the
narrow machine type, also where nothing else is rounded.
-/

namespace MapStyle

variable {K : Type} [Field K] [LinearOrder K] [IsStrictOrderedRing K] [FloorRing K] [Elementary K]

namespace CompiledStyle

/-- What the interpreter sees of a feature in a frame. -/
def featureContext (style : CompiledStyle K K) (frame : Frame K K) (properties : Properties K K) :
    Context K K :=
  { style.frameContext frame with properties }

/-- Every attribute that carries a feature property can hold what is read of the feature. -/
def Packs (style : CompiledStyle K K) (properties : Properties K K) : Prop :=
  ∀ a ∈ style.plan.attributes, ∀ name, a.source = .property name →
    ∃ value, readProperty properties name a.type = .ok value ∧ a.Fits value

/-- What is computed in the shader sees the images of what the interpreter reads. -/
theorem rendered_inline {parsed : ParsedStyle K K} {style : CompiledStyle K K}
    {requests : List (AttributeRequest K K)} (sound : parsed.Sound)
    (made : parsed.requests = .ok requests) (planned : style.plan = Plan.ofRequests requests)
    (bindings : style.bindings = parsed.bindings)
    (distinct : (style.uniforms.slots.map UniformSlot.name).Nodup)
    {entry : StyleProperty × Expr K K} (member : entry ∈ parsed.properties)
    (tier : Tier.of entry.1 entry.2 = .inline) {frame : Frame K K} {properties : Properties K K}
    (packs : style.Packs properties)
    (apart : ∀ node ∈ entry.2.nodes, node.ComparesApart (style.featureContext frame properties)) :
    ∀ node ∈ entry.2.nodes, node.Rendered (parsed.target style.plan entry.1) style.uniforms
      (style.featureContext frame properties)
      (style.shaderScope (style.featureContext frame properties) frame) := by
  intro node inNodes
  cases node with
  | property name type =>
    intro shown unpacked found
    obtain ⟨a, inPlan, carries, named⟩ := ParsedStyle.exists_planned made member tier inNodes
    rw [← planned] at inPlan named
    obtain rfl : a.unpackedName = unpacked := Option.some.inj (named.symm.trans found)
    obtain ⟨value, given, fits⟩ := packs a inPlan name carries.source
    have sameType : a.type = type := carries.type
    have ofType : value.type = a.type := by
      have typed : Outcome.HasType EvalError.Foreign a.type
          (readProperty properties name a.type) := Expr.hasType_readProperty properties name a.type
      rw [given] at typed
      exact typed
    have read : attributeValue (style.featureContext frame properties) a = .ok value := by
      rw [attributeValue, carries.source]
      exact given
    have bound := shaderScope_unpacked (planned ▸ Plan.nodup_names requests) frame inPlan read
    refine ⟨value, sameType ▸ given, sameType ▸ ofType, ?_⟩
    rw [ShaderExpr.eval, bound, Option.getD_some]
    exact Attribute.image?_decode ofType (sameType ▸ shown) (sameType ▸ carries.quantization)
      (fun low high declared => Exact.lt_iff.1 (ParsedStyle.boundsOf_lt declared)) fits
  | input source type =>
    intro shown slot inSlots filled
    have typed : source.type? parsed.environment = some type :=
      ((sound.typed entry member).2.node inNodes).respects
    obtain ⟨value, read, rfl, held⟩ := uniformValue_input frame properties bindings.symm typed
    have bound := shaderScope_uniforms distinct (style.featureContext frame properties) frame
      inSlots
    refine ⟨value, congrArg Except.ok read, rfl, ?_⟩
    rw [ShaderExpr.eval, bound, Option.getD_some, filled, held]
    exact ShaderValue.image?_readAs shown
  | _ => exact apart _ inNodes

/-- The shader value of a property that is computed once per draw or in the vertex stage evaluates
to the image of the property's value. -/
theorem parity {spec : StyleSpec K K} {style : CompiledStyle K K}
    (compiled : ofSpec spec = .ok style)
    (frame : Frame K K) {properties : Properties K K} (packs : style.Packs properties)
    {p : CompiledProperty K K} (member : p ∈ style.properties)
    (tier : p.tier = .uniform ∨ p.tier = .inline)
    (apart : ∀ node ∈ p.expr.nodes, node.ComparesApart (style.featureContext frame properties)) :
    ∃ s value, p.shader = some s ∧
      p.expr.evaluate (style.featureContext frame properties) = .ok value ∧
      value.image? =
        some (s.eval (style.shaderScope (style.featureContext frame properties) frame)) := by
  obtain ⟨parsed, ofStyle, ran⟩ := bind_eq_ok.1 compiled
  have sound := ParsedStyle.sound_ofSpec ofStyle
  obtain ⟨requests, made, planned, bindings, -, grown, compiles⟩ :=
    ParsedStyle.lower_eq_ok sound ran
  have distinct := grown.distinct UniformLayout.distinct_initial
  obtain ⟨entry, inStyle, compiles'⟩ := ParsedStyle.exists_compiles compiles member
  obtain ⟨ofType, typed⟩ := sound.typed entry inStyle
  have shown : entry.2.type ≠ .numberArray := ofType ▸ entry.1.type_ne_numberArray
  rw [compiles'.expr] at apart ⊢
  rcases tier with tier | tier
  · have shared := Tier.shared_of_uniform (compiles'.tier.symm.trans tier)
    obtain ⟨slot, inSlots, filled, shader⟩ := compiles'.uniform tier
    obtain ⟨value, given, sameType⟩ :=
      Expr.exists_evaluate_shared typed shared (style.frameContext frame)
    have found : style.property? entry.1 = some p := by
      rw [← compiles'.property]
      refine property?_of_mem ?_ member
      rw [ParsedStyle.map_property_eq compiles]
      exact sound.distinct
    have bound := shaderScope_uniforms distinct (style.featureContext frame properties) frame
      inSlots
    refine ⟨_, value, shader, ?_, ?_⟩
    · rw [← given]
      exact (Expr.evaluate_shared shared (style.frameContext frame) properties).symm
    · rw [ShaderExpr.eval, bound, Option.getD_some, filled]
      simp only [uniformValue, evaluate, found, compiles'.expr, given]
      rw [← ofType, ← sameType]
      exact ShaderValue.image?_readAs (sameType ▸ shown)
  · obtain ⟨s, lowered, shader⟩ := compiles'.inline tier
    obtain ⟨value, given, -, image⟩ := Expr.simulates_lowered entry.2 lowered typed shown
      (rendered_inline sound made planned bindings distinct inStyle
        (compiles'.tier.symm.trans tier) packs apart)
    exact ⟨s, value, shader, given, image⟩

/-! ## Over the rationals -/

/-- The rationals with the remainder and with whole powers; every other function is constant. -/
instance rational : Elementary ℚ where
  remainder x y := x - y * (if 0 ≤ x / y then ⌊x / y⌋ else ⌈x / y⌉)
  power x y := x ^ ⌊y⌋
  sqrt _ := 0
  sin _ := 0
  cos _ := 0
  atan _ := 0
  atan2 _ _ := 0
  infinity := 0
  undefined := 0
  text x := toString x
  literal x := toString x
  code x := x.num.natAbs
  precedes x y := decide (x < y)

/-- Roads are as wide as they have lanes, and wider at a greater zoom. -/
def roadWidth : StyleSpec ℚ ℚ :=
  { StyleSpec.empty with
    properties := Dictionary.empty.insert "stroke-width"
      (.array [.string "case",
        .array [.string "==", .array [.string "get", .string "class"], .string "road"],
        .array [.string "*", .array [.string "get", .string "lanes"], .array [.string "zoom"]],
        .number (.integer 1)])
    schema := some ((Dictionary.empty.insert "class" ⟨.string, none, none⟩).insert "lanes"
      ⟨.number, some 0, some 8⟩) }

/-- A road of four lanes. -/
def fourLanes : Properties ℚ ℚ
  | "class" => some (.string "road")
  | "lanes" => some (.number 4)
  | _ => none

/-- A frame at a zoom. -/
def frameAt (zoom : ℚ) : Frame ℚ ℚ := ⟨Frame.identity, zoom, 1, 0, .empty⟩

/-- The shader makes a road of four lanes twelve wide, as the interpreter does. -/
theorem roadWidth_parity :
    ∃ style p s value, ofSpec roadWidth = .ok style ∧ style.Packs fourLanes ∧
      p ∈ style.properties ∧ p.tier = .inline ∧ p.shader = some s ∧
      (∀ node ∈ p.expr.nodes, node.ComparesApart (style.featureContext (frameAt 3) fourLanes)) ∧
      p.expr.evaluate (style.featureContext (frameAt 3) fourLanes) = .ok value ∧
      value.image? =
        some (s.eval (style.shaderScope (style.featureContext (frameAt 3) fourLanes) (frameAt 3))) ∧
      value.image? = some (.float 12) := by
  obtain ⟨style, p, compiled, packs, member, tier, apart, evaluated⟩ :
      ∃ style p, ofSpec roadWidth = .ok style ∧ style.Packs fourLanes ∧ p ∈ style.properties ∧
        p.tier = .inline ∧
        (∀ node ∈ p.expr.nodes, node.ComparesApart (style.featureContext (frameAt 3) fourLanes)) ∧
        p.expr.evaluate (style.featureContext (frameAt 3) fourLanes) =
          .ok (.number (Scalar.one * 4 * 3)) := by
    refine ⟨_, _, rfl, ?_, List.mem_cons_self, rfl, ?_, rfl⟩
    · refine List.forall_mem_cons.2 ⟨fun name carried => ?_, List.forall_mem_cons.2
        ⟨fun name carried => ?_, fun _ member => nomatch member⟩⟩
      · cases carried
        exact ⟨.string "road", rfl, trivial⟩
      · cases carried
        exact ⟨.number 4, rfl, by norm_num, by norm_num⟩
    · refine List.forall_mem_cons.2 ⟨trivial, List.forall_mem_cons.2 ⟨?_, ?_⟩⟩
      · intro _ a b first second _
        have ofClass : "road" = a := Value.string.inj (Except.ok.inj first)
        have ofLiteral : "road" = b := Value.string.inj (Except.ok.inj second)
        rw [← ofClass, ← ofLiteral]
      · refine List.forall_mem_cons.2 ⟨trivial, List.forall_mem_cons.2 ⟨trivial,
          List.forall_mem_cons.2 ⟨?_, List.forall_mem_cons.2 ⟨trivial, List.forall_mem_cons.2
            ⟨trivial, List.forall_mem_cons.2 ⟨trivial, fun _ member => nomatch member⟩⟩⟩⟩⟩⟩
        rintro (same | same)
        · cases same
        · cases same
  obtain ⟨s, value, shader, given, image⟩ :=
    parity compiled (frameAt 3) packs member (.inr tier) apart
  refine ⟨style, p, s, value, compiled, packs, member, tier, shader, apart, given, image, ?_⟩
  rw [evaluated] at given
  cases given
  have product : (Scalar.one * 4 * 3 : ℚ) = 12 := by
    rw [Exact.one_eq]
    norm_num
  rw [product]
  rfl

/-- A width in units of the zoom. -/
def widthByZoom : StyleSpec ℚ ℚ :=
  { StyleSpec.empty with
    properties := Dictionary.empty.insert "stroke-width"
      (.array [.string "/", .array [.string "get", .string "x"], .array [.string "zoom"]]) }

/-- A feature with a number that is out of the range of the narrow machine type. -/
def vast : Properties ℚ ℚ
  | "x" => some (.number (2 ^ 130))
  | _ => none

/-- Where a number has no declared range, it is packed into that of the narrow machine type, and
the shader then computes with another number than the interpreter. -/
theorem widthByZoom_saturates :
    ∃ style p s, ofSpec widthByZoom = .ok style ∧
      (∀ a ∈ style.plan.attributes, a.quantization = .raw ∧ ∀ name, a.source = .property name →
        ∃ value, readProperty vast name a.type = .ok value) ∧
      p ∈ style.properties ∧ p.tier = .inline ∧ p.shader = some s ∧
      (∀ node ∈ p.expr.nodes, node.ComparesApart (style.featureContext (frameAt (2 ^ 100)) vast)) ∧
      p.expr.evaluate (style.featureContext (frameAt (2 ^ 100)) vast) = .ok (.number (2 ^ 30)) ∧
      s.eval (style.shaderScope (style.featureContext (frameAt (2 ^ 100)) vast)
        (frameAt (2 ^ 100))) = .float (Scalar.narrowLimit / 2 ^ 100) ∧
      (Value.number (2 ^ 30) : Value ℚ ℚ).image? ≠
        some (.float (Scalar.narrowLimit / 2 ^ 100)) := by
  have quotient : (2 ^ 130 / 2 ^ 100 : ℚ) = 2 ^ 30 := by norm_num
  refine ⟨_, _, _, rfl, ?_, List.mem_cons_self, rfl, rfl, ?_, ?_, rfl, ?_⟩
  · refine List.forall_mem_cons.2 ⟨⟨rfl, fun name carried => ?_⟩, fun _ member => nomatch member⟩
    cases carried
    exact ⟨.number (2 ^ 130), rfl⟩
  · refine List.forall_mem_cons.2 ⟨?_, List.forall_mem_cons.2 ⟨trivial,
      List.forall_mem_cons.2 ⟨trivial, fun _ member => nomatch member⟩⟩⟩
    rintro (same | same)
    · cases same
    · cases same
  · rw [← quotient]
    rfl
  · intro same
    have same : (2 ^ 30 : ℚ) = Scalar.narrowLimit / 2 ^ 100 :=
      ShaderValue.float.inj (Option.some.inj same)
    rw [Scalar.narrowLimit, Exact.ofNat_eq] at same
    norm_num at same

end CompiledStyle

end MapStyle
