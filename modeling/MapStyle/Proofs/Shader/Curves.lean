import MapStyle.Proofs.Expr.Interpolation
import MapStyle.Proofs.Shader.Operators
import MapStyle.Proofs.Style.Lowering

/-!
# Interpolations and decisions in the shader

The interpreter looks for one segment or one branch and evaluates that; the shader evaluates
all of them and selects. On ascending stops the segment that is selected last is the one that
is found, and below the first stop none is selected.
-/

namespace MapStyle

variable {K : Type} [Field K] [LinearOrder K] [FloorRing K] [Elementary K]
  {scope : ShaderScope K}

/-! ## Decisions -/

/-- A chain of selections simulates the first condition that holds. -/
theorem Expr.simulates_choose {type : ValueType} {fallback : Outcome (Value K K)}
    {otherwise : ShaderExpr K} {conditions results : List (Outcome (Value K K))}
    {tests outputs : List (ShaderExpr K)} (ofFallback : Simulates scope type fallback otherwise)
    (ofConditions : List.Forall₂ (Simulates scope .boolean) conditions tests)
    (ofResults : List.Forall₂ (Simulates scope type) results outputs) :
    Simulates scope type (choose fallback (conditions.zip results))
      (.selections otherwise (tests.zip outputs)) := by
  induction ofConditions generalizing results outputs with
  | nil => exact ofFallback
  | cons ofCondition ofRest ih =>
    cases ofResults with
    | nil => exact ofFallback
    | cons ofResult ofOthers =>
      obtain ⟨holds, rfl, evaluated⟩ := Simulates.boolean_iff.1 ofCondition
      cases holds with
      | true =>
        obtain ⟨value, rfl, ofType, image⟩ := ofResult
        refine ⟨value, rfl, ofType, ?_⟩
        simp only [List.zip_cons_cons, ShaderExpr.selections, List.foldr_cons, ShaderExpr.eval,
          evaluated]
        exact image
      | false =>
        obtain ⟨value, given, ofType, image⟩ := ih ofOthers
        refine ⟨value, given, ofType, ?_⟩
        simp only [List.zip_cons_cons, ShaderExpr.selections, List.foldr_cons, ShaderExpr.eval,
          evaluated]
        exact image

/-! ## Segments -/

namespace Curve

variable {curve : Curve K} {x : K} {s below : ShaderExpr K} {type : ValueType}

/-- A stop of the interpreter and one of the shader: the same place, and an output that is
simulated. -/
def SimulatesStop (scope : ShaderScope K) (type : ValueType) (stop : K × Outcome (Value K K))
    (lowered : K × ShaderExpr K) : Prop :=
  stop.1 = lowered.1 ∧ Simulates scope type stop.2 lowered.2

theorem simulates_stops {places : List K} {outputs : List (Outcome (Value K K))}
    {lowered : List (ShaderExpr K)}
    (ofOutputs : List.Forall₂ (Simulates scope type) outputs lowered) :
    List.Forall₂ (SimulatesStop scope type) (places.zip outputs) (places.zip lowered) := by
  induction ofOutputs generalizing places with
  | nil =>
    rw [List.zip_nil_right, List.zip_nil_right]
    exact .nil
  | cons ofFirst ofRest ih =>
    cases places with
    | nil => exact .nil
    | cons place others => exact .cons ⟨rfl, ofFirst⟩ ih

/-- Below the first stop no segment is selected. -/
theorem simulates_below {r : Outcome (Value K K)} {stops : List (K × ShaderExpr K)}
    (position : s.eval scope = .float x) (ofBelow : Simulates scope type r below)
    (least : ∀ stop ∈ stops, x ≤ stop.1) :
    Simulates scope type r (ShaderExpr.segments curve s below stops) := by
  induction stops generalizing below with
  | nil => exact ofBelow
  | cons low rest ih =>
    obtain ⟨ofLow, ofRest⟩ := List.forall_mem_cons.1 least
    cases rest with
    | nil => exact ofBelow
    | cons high others =>
      rw [ShaderExpr.segments]
      refine ih ?_ ofRest
      obtain ⟨value, given, ofType, image⟩ := ofBelow
      refine ⟨value, given, ofType, ?_⟩
      have outside : Scalar.lt low.1 x = false := by
        rw [Bool.eq_false_iff, Ne, Exact.lt_iff]
        exact not_lt.2 ofLow
      simp only [ShaderExpr.eval, position, Exact.narrow_eq, BinaryOp.apply, BinaryOp.onFloats,
        ShaderValue.asFloat, outside, ShaderValue.asBool, Bool.false_eq_true, if_false]
      exact image

/-- The shader computes the place between two stops as the interpreter does. -/
theorem eval_factor (curve : Curve K) (position : s.eval scope = .float x) (low high : K) :
    (ShaderExpr.factor curve s low high).eval scope = .float (curve.factor x low high) := by
  have inOrder : (Scalar.zero : K) ≤ Scalar.one := by
    rw [Exact.zero_eq, Exact.one_eq]
    exact zero_le_one
  simp only [factor]
  rw [← Exact.minimum_maximum inOrder]
  cases curve with
  | linear =>
    simp only [ShaderExpr.factor, ShaderExpr.eval, ShaderExpr.evalAll, position]
    rfl
  | exponential base =>
    simp only [ShaderExpr.factor]
    split
    · simp only [ShaderExpr.eval, ShaderExpr.evalAll, position]
      rfl
    · simp only [ShaderExpr.eval, ShaderExpr.evalAll, position]
      rfl

theorem blend_eq (t a b : K) :
    Builtin.blend t a b = a + (b - a) * t := by
  rw [Builtin.blend, Exact.one_eq]
  ring

/-- The shader blends two outputs as the interpreter does. -/
theorem simulates_onSegment (curve : Curve K) {low high : K × Outcome (Value K K)}
    {lowered raised : K × ShaderExpr K} (blendable : type = .number ∨ type = .color)
    (position : s.eval scope = .float x) (ofLow : SimulatesStop scope type low lowered)
    (ofHigh : SimulatesStop scope type high raised) :
    Simulates scope type (onSegment curve x (low, high))
      (.call .mix [lowered.2, raised.2, .factor curve s lowered.1 raised.1]) := by
  obtain ⟨place, ofLow⟩ := ofLow
  obtain ⟨placeHigh, ofHigh⟩ := ofHigh
  have between : (ShaderExpr.factor curve s lowered.1 raised.1).eval scope =
      .float (curve.factor x lowered.1 raised.1) := eval_factor curve position _ _
  rcases blendable with rfl | rfl
  · obtain ⟨a, given, evaluated⟩ := Simulates.number_iff.1 ofLow
    obtain ⟨b, givenHigh, evaluatedHigh⟩ := Simulates.number_iff.1 ofHigh
    refine Simulates.number_iff.2
      ⟨a + (b - a) * curve.factor x lowered.1 raised.1, ?_, ?_⟩
    · rw [onSegment, given, givenHigh, place, placeHigh]
      rfl
    · simp only [ShaderExpr.eval, ShaderExpr.evalAll, evaluated, evaluatedHigh, between]
      exact congrArg ShaderValue.float (blend_eq _ a b)
  · obtain ⟨a, given, evaluated⟩ := Simulates.color_iff.1 ofLow
    obtain ⟨b, givenHigh, evaluatedHigh⟩ := Simulates.color_iff.1 ofHigh
    refine Simulates.color_iff.2 ⟨a.mix b (curve.factor x lowered.1 raised.1), ?_, ?_⟩
    · rw [onSegment, given, givenHigh, place, placeHigh]
      rfl
    · simp only [ShaderExpr.eval, ShaderExpr.evalAll, evaluated, evaluatedHigh, between]
      have channels (a b : Color K) (t : K) :
          Vec4.zipWith (Builtin.blend t) (Vec4.ofColor a) (Vec4.ofColor b) =
            Vec4.ofColor (a.mix b t) := by
        simp only [Vec4.zipWith, Vec4.ofColor, Color.mix, blend_eq]
      exact congrArg ShaderValue.vec4 (channels a b _)

/-- Above the first stop the segment selected last is the one the interpreter finds. -/
theorem simulates_segments {stops : List (K × Outcome (Value K K))}
    {lowered : List (K × ShaderExpr K)}
    {segment : (K × Outcome (Value K K)) × (K × Outcome (Value K K))}
    (blendable : type = .number ∨ type = .color) (position : s.eval scope = .float x)
    (ofStops : List.Forall₂ (SimulatesStop scope type) stops lowered)
    (soFar : Simulates scope type (onSegment curve x segment) below) :
    Simulates scope type (onSegment curve x (lastSegment x segment stops))
      (ShaderExpr.segments curve s below lowered) := by
  induction ofStops generalizing segment below with
  | nil => exact soFar
  | @cons low lowLowered rest restLowered ofLow ofRest ih =>
    cases ofRest with
    | nil => exact soFar
    | @cons high highLowered others othersLowered ofHigh ofOthers =>
      rw [lastSegment, ShaderExpr.segments]
      refine ih ?_
      have condition : (ShaderExpr.binary .greater s (.float (narrow lowLowered.1))).eval scope =
          .bool (Scalar.lt low.1 x) := by
        rw [ShaderExpr.eval, position, ofLow.1]
        rfl
      by_cases above : Scalar.lt low.1 x = true
      · obtain ⟨value, given, ofType, image⟩ :=
          simulates_onSegment curve blendable position ofLow ofHigh
        rw [if_pos above]
        refine ⟨value, given, ofType, ?_⟩
        rw [ShaderExpr.eval, condition, above]
        exact image
      · obtain ⟨value, given, ofType, image⟩ := soFar
        rw [if_neg above]
        refine ⟨value, given, ofType, ?_⟩
        rw [ShaderExpr.eval, condition, Bool.eq_false_iff.2 above]
        exact image

/-- The shader's curve through ascending stops simulates the interpreter's. -/
theorem simulates_sample {stops : List (K × Outcome (Value K K))}
    {lowered : List (K × ShaderExpr K)} (blendable : type = .number ∨ type = .color)
    (ascending : (lowered.map Prod.fst).Pairwise (· < ·)) (nonempty : stops ≠ [])
    (position : s.eval scope = .float x)
    (ofStops : List.Forall₂ (SimulatesStop scope type) stops lowered) :
    Simulates scope type (curve.sample x stops) (.ofStops curve s lowered) := by
  cases ofStops with
  | nil => exact absurd rfl nonempty
  | @cons first firstLowered rest restLowered ofFirst ofRest =>
    obtain ⟨place, output⟩ := firstLowered
    rw [ShaderExpr.ofStops]
    cases ofRest with
    | nil => exact ofFirst.2
    | @cons second secondLowered others othersLowered ofSecond ofOthers =>
      rw [sample_eq, ofFirst.1]
      split
      next below =>
        refine simulates_below position ofFirst.2 fun stop member => ?_
        have below : x ≤ place := Exact.le_iff.1 below
        rcases List.mem_cons.1 member with rfl | later
        · exact below
        · rw [List.map_cons, List.pairwise_cons] at ascending
          exact below.trans (ascending.1 stop.1 (List.mem_map_of_mem later)).le
      next above =>
        have above : Scalar.lt place x = true := by
          rw [Exact.lt_iff]
          rw [Exact.le_iff] at above
          exact not_le.1 above
        rw [ShaderExpr.segments]
        refine simulates_segments blendable position (.cons ofSecond ofOthers) ?_
        obtain ⟨value, given, ofType, image⟩ :=
          simulates_onSegment curve blendable position ofFirst ofSecond
        refine ⟨value, given, ofType, ?_⟩
        simp only [ShaderExpr.eval, position, Exact.narrow_eq, BinaryOp.apply, BinaryOp.onFloats,
          ShaderValue.asFloat, above, ShaderValue.asBool, if_true]
        exact image

end Curve

end MapStyle
