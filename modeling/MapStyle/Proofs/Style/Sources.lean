import MapStyle.Proofs.Style.Compiled

/-!
# What the uniform block is filled from

A layout grows by what is lowered, so every slot of a compiled style has a source that some
property of the style asked for: an input of the frame, which is a variable only where the style
declares it, or a property that is computed once per draw. This is the converse of
`ParsedStyle.Compiles`, by which what a property asks for has its slot.
-/

namespace MapStyle

variable {W N : Type}

/-! ## Computations that keep a property of layouts -/

/-- Whatever a computation comes to, it keeps a property of layouts. -/
def Keeps (holds : UniformLayout → Prop) {α : Type} (m : Lowering α) : Prop :=
  ∀ layout : UniformLayout, holds layout → holds (m.run.run layout).2

namespace Keeps

variable {α β : Type} {holds : UniformLayout → Prop}

theorem pure (a : α) : Keeps holds (pure a : Lowering α) := fun _ before => before

theorem throw (e : CompileError) : Keeps holds (throw e : Lowering α) := fun _ before => before

theorem bind {m : Lowering α} {f : α → Lowering β} (first : Keeps holds m)
    (next : ∀ a, Keeps holds (f a)) : Keeps holds (m >>= f) := by
  intro layout before
  have after := first layout before
  rw [ExceptT.run_bind, StateT.run_bind]
  cases outcome : m.run.run layout with
  | mk result grown =>
    rw [outcome] at after
    cases result with
    | ok a => exact next a grown after
    | error e => exact after

end Keeps

/-- All slots of a layout have sources of a kind. -/
def UniformLayout.Only (allowed : UniformSource → Prop) (layout : UniformLayout) : Prop :=
  ∀ slot ∈ layout.slots, allowed slot.source

theorem UniformLayout.only_declare {allowed : UniformSource → Prop} {layout : UniformLayout}
    (only : layout.Only allowed) {slot : UniformSlot} (asked : allowed slot.source) :
    (layout.declare slot).1.Only allowed :=
  forall_declare only asked

/-- Whatever a computation comes to, it declares sources of a kind only. -/
def Declares (allowed : UniformSource → Prop) {α : Type} (m : Lowering α) : Prop :=
  ∀ layout : UniformLayout, layout.Only allowed → (m.run.run layout).2.Only allowed

/-! ## Lowering -/

variable [Scalar W] [Scalar N] [Precision W N]

namespace Expr

variable {t : Target W N} {holds : UniformLayout → Prop}

omit [Scalar W] in
theorem keeps_constant (value : Value W N) : Keeps holds (t.constant value) := by
  unfold Target.constant
  split
  next => exact .pure _
  next => exact .throw _

theorem keeps_lowerAll {args : List (Expr W N)}
    (each : ∀ arg ∈ args, Keeps holds (arg.lower t)) : Keeps holds (lowerAll t args) := by
  induction args with
  | nil => exact .pure _
  | cons arg rest ih =>
    obtain ⟨first, others⟩ := List.forall_mem_cons.1 each
    rw [lowerAll]
    exact first.bind fun _ => (ih others).bind fun _ => .pure _

theorem keeps_lowerStops {stops : List (W × Expr W N)}
    (each : ∀ stop ∈ stops, Keeps holds (stop.2.lower t)) : Keeps holds (lowerStops t stops) := by
  induction stops with
  | nil => exact .pure _
  | cons stop rest ih =>
    obtain ⟨first, others⟩ := List.forall_mem_cons.1 each
    rw [lowerStops]
    exact first.bind fun _ => (ih others).bind fun _ => .pure _

theorem keeps_lowerBranches {branches : List (Expr W N × Expr W N)} (otherwise : ShaderExpr N)
    (each : ∀ branch ∈ branches,
      Keeps holds (branch.1.lower t) ∧ Keeps holds (branch.2.lower t)) :
    Keeps holds (lowerBranches t otherwise branches) := by
  induction branches with
  | nil => exact .pure _
  | cons branch rest ih =>
    obtain ⟨⟨ofCondition, ofResult⟩, others⟩ := List.forall_mem_cons.1 each
    rw [lowerBranches]
    exact (ih others).bind fun _ => ofResult.bind fun _ => ofCondition.bind fun _ => .pure _

/-- Lowering a tree declares the frame inputs that the tree reads, and so keeps what they keep. -/
theorem keeps_lower (e : Expr W N)
    (asked : ∀ node ∈ e.nodes, ∀ source type, node = input source type →
      Keeps holds (Target.input source type : Lowering (ShaderExpr N))) :
    Keeps holds (e.lower t) := by
  induction e using structural with
  | literal value =>
    rw [lower]
    split
    next => exact keeps_constant _
    next => exact keeps_constant _
  | property name type =>
    rw [lower, Target.featureProperty]
    split
    next => exact keeps_constant _
    next =>
      split
      next => exact .pure _
      next => exact .throw _
  | input source type =>
    rw [lower]
    split
    next => exact keeps_constant _
    next => exact asked _ (mem_nodes_self _) source type rfl
  | operator op args type ih =>
    obtain ⟨-, asked⟩ := forall_nodes_operator.1 asked
    rw [lower]
    split
    next => exact keeps_constant _
    next =>
      have each := keeps_lowerAll fun arg member => ih arg member (asked arg member)
      exact each.bind fun _ => .pure _
  | interpolate curve x stops type ihInput ihStops =>
    obtain ⟨-, askedInput, asked⟩ := forall_nodes_interpolate.1 asked
    rw [lower]
    split
    next => exact keeps_constant _
    next =>
      have each := keeps_lowerStops fun stop member => ihStops stop member (asked stop member)
      exact (ihInput askedInput).bind fun _ => each.bind fun _ => .pure _
  | case branches fallback type ihBranches ihFallback =>
    obtain ⟨-, asked, askedFallback⟩ := forall_nodes_case.1 asked
    rw [lower]
    split
    next => exact keeps_constant _
    next =>
      refine (ihFallback askedFallback).bind fun otherwise =>
        keeps_lowerBranches otherwise fun branch member => ?_
      exact ⟨(ihBranches branch member).1 (asked branch member).1,
        (ihBranches branch member).2 (asked branch member).2⟩
  | external id type =>
    rw [lower]
    split
    next => exact keeps_constant _
    next => exact .throw _

end Expr

/-! ## Styles -/

namespace ParsedStyle

variable {style : ParsedStyle W N}

omit [Scalar W] [Scalar N] [Precision W N] in
/-- What a style may fill a uniform from: frame inputs, with the variables it declares, and those
of its properties that are computed once per draw. -/
inductive Fills (style : ParsedStyle W N) : UniformSource → Prop
  | frame {source : FrameInput} {type : ValueType}
      (declared : source.type? style.environment = some type) : Fills style (.frame source)
  | property {entry : StyleProperty × Expr W N} (member : entry ∈ style.properties)
      (tier : Tier.of entry.1 entry.2 = .uniform) : Fills style (.property entry.1)

/-- The value of a property declares the uniform of the property or the inputs of its tree, and so
keeps what these keep. -/
theorem keeps_shaderValue {holds : UniformLayout → Prop} (plan : Plan W N)
    (entry : StyleProperty × Expr W N)
    (filled : Tier.of entry.1 entry.2 = .uniform → ∀ layout : UniformLayout, holds layout →
      holds (layout.property entry.1).1)
    (asked : ∀ node ∈ entry.2.nodes, ∀ source type, node = .input source type →
      Keeps holds (Target.input source type : Lowering (ShaderExpr N))) :
    Keeps holds (style.shaderValue plan entry.1 entry.2) := by
  unfold shaderValue
  split
  next tier => exact filled tier
  next => exact (Expr.keeps_lower entry.2 asked).bind fun _ => .pure _
  next =>
    split
    next => exact .pure _
    next => exact .throw _
  next => exact .pure _
  next => exact .pure _

theorem keeps_compiledProperties {holds : UniformLayout → Prop} (plan : Plan W N)
    {entries : List (StyleProperty × Expr W N)}
    (each : ∀ entry ∈ entries, Keeps holds (style.shaderValue plan entry.1 entry.2)) :
    Keeps holds (style.compiledProperties plan entries) := by
  induction entries with
  | nil => exact .pure _
  | cons entry rest ih =>
    obtain ⟨first, others⟩ := List.forall_mem_cons.1 each
    rw [compiledProperties]
    exact first.bind fun _ => (ih others).bind fun _ => .pure _

/-- What holds of the initial layout and is kept by every property holds of the layout of the
compiled style. -/
theorem holds_uniforms {holds : UniformLayout → Prop} (first : holds .initial)
    (each : ∀ plan, ∀ entry ∈ style.properties,
      Keeps holds (style.shaderValue plan entry.1 entry.2))
    {compiled : CompiledStyle W N} (ran : style.lower = .ok compiled) :
    holds compiled.uniforms := by
  unfold lower at ran
  obtain ⟨requests, -, ran⟩ := bind_eq_ok.1 ran
  obtain ⟨properties, -, ran⟩ := bind_eq_ok.1 ran
  rw [pure_eq_ok] at ran
  subst ran
  exact keeps_compiledProperties _ (each _) _ first

theorem declares_shaderValue (sound : style.Sound) (plan : Plan W N)
    {entry : StyleProperty × Expr W N} (member : entry ∈ style.properties) :
    Declares style.Fills (style.shaderValue plan entry.1 entry.2) := by
  refine keeps_shaderValue plan entry
    (fun tier _ only => UniformLayout.only_declare only (.property member tier)) ?_
  rintro node inNodes source type rfl layout only
  exact UniformLayout.only_declare only
    (.frame ((sound.typed entry member).2.node inNodes).respects)

omit [Scalar W] [Scalar N] [Precision W N] in
theorem only_initial : UniformLayout.initial.Only style.Fills := by
  have none : UniformLayout.Only style.Fills ⟨[]⟩ := fun _ member => nomatch member
  have zoom : style.Fills (.frame .zoom) := .frame rfl
  have resolution : style.Fills (.frame .resolution) := .frame rfl
  have time : style.Fills (.frame .time) := .frame rfl
  exact UniformLayout.only_declare
    (UniformLayout.only_declare (UniformLayout.only_declare none zoom) resolution) time

/-- Every slot of a compiled style is filled from what the style declares and sets. -/
theorem fills_of_mem (sound : style.Sound) {compiled : CompiledStyle W N}
    (ran : style.lower = .ok compiled) {slot : UniformSlot}
    (member : slot ∈ compiled.uniforms.slots) : style.Fills slot.source :=
  holds_uniforms only_initial (fun plan _ => declares_shaderValue sound plan) ran slot member

end ParsedStyle

end MapStyle
