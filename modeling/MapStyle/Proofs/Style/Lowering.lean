import Mathlib.Data.List.Forall2
import MapStyle.Proofs.Expr.Locality
import MapStyle.Proofs.Uniform.Layout
import MapStyle.Style.Lowering

/-!
# What lowering makes of an expression

`Expr.Lowered` relates a tree to its shader expressions form by form, without the layout being
threaded through: it speaks of one layout, in which every uniform has its slot already. The
lowering of a well-typed tree over planned properties succeeds with an expression that is so
related to the tree in every layout that is grown from the one it ends with.
-/

namespace MapStyle

variable {W N : Type}

/-! ## Computations that grow a layout -/

/-- A computation that starts from a layout succeeds, and what is promised of its result holds in
every layout grown from the one it ends with. -/
def Yields {α : Type} (m : Lowering α) (layout : UniformLayout)
    (promise : UniformLayout → α → Prop) : Prop :=
  ∃ a after, m.run.run layout = (.ok a, after) ∧ layout.Extends after ∧
    ∀ final, after.Extends final → promise final a

namespace Yields

variable {α β : Type} {layout : UniformLayout} {promise other : UniformLayout → α → Prop}

theorem pure {a : α} (kept : ∀ final, promise final a) : Yields (pure a) layout promise :=
  ⟨a, layout, rfl, .refl layout, fun final _ => kept final⟩

theorem weaken {m : Lowering α} (yields : Yields m layout promise)
    (implies : ∀ final a, promise final a → other final a) : Yields m layout other := by
  obtain ⟨a, after, ran, grown, kept⟩ := yields
  exact ⟨a, after, ran, grown, fun final later => implies final a (kept final later)⟩

/-- What the first computation promises may be used in the final layout of both. -/
theorem bind {m : Lowering α} {f : α → Lowering β} {result : UniformLayout → β → Prop}
    (first : Yields m layout promise)
    (next : ∀ a after, Yields (f a) after fun final b => promise final a → result final b) :
    Yields (m >>= f) layout result := by
  obtain ⟨a, after, ran, grown, kept⟩ := first
  obtain ⟨b, last, ranNext, grownNext, keptNext⟩ := next a after
  refine ⟨b, last, ?_, grown.trans grownNext, fun final later => ?_⟩
  · rw [ExceptT.run_bind, StateT.run_bind, ran]
    exact ranNext
  · exact keptNext final later (kept final (grownNext.trans later))

end Yields

/-! ## The relation -/

/-- A chain of selections: the result of the first condition that holds. -/
def ShaderExpr.selections (otherwise : ShaderExpr N)
    (branches : List (ShaderExpr N × ShaderExpr N)) :
    ShaderExpr N :=
  branches.foldr (fun branch rest => .select rest branch.2 branch.1) otherwise

variable [Scalar W] [Scalar N] [Precision W N]

/-- The shader expressions of a tree against a target, when the uniforms have these slots. -/
inductive Expr.Lowered (t : Target W N) (layout : UniformLayout) : Expr W N → ShaderExpr N → Prop
  | constant {e value s} (shared : e.isFeatureDependent = false)
      (still : e.isFrameDependent = false)
      (evaluated : e.evaluate t.constantContext = .ok value)
      (shown : ShaderExpr.ofValue? value = some s) : Lowered t layout e s
  | property {name type unpacked} (planned : t.plan.unpackedProperty? name = some unpacked) :
      Lowered t layout (property name type) (.unpacked unpacked (ShaderType.of type))
  | input {source type slot} (member : slot ∈ layout.slots) (filled : slot.source = .frame source) :
      Lowered t layout (input source type) (.uniform slot.name (ShaderType.of type))
  | operator {op args type operands} (ofArgs : List.Forall₂ (Lowered t layout) args operands) :
      Lowered t layout (operator op args type) (.ofOperator op operands)
  | interpolate {curve x stops type s outputs} (ofInput : Lowered t layout x s)
      (ofStops : List.Forall₂ (Lowered t layout) (stops.map Prod.snd) outputs) :
      Lowered t layout (interpolate curve x stops type)
        (.ofStops curve s ((stops.map Prod.fst).zip outputs))
  | case {branches fallback type conditions results s}
      (ofConditions : List.Forall₂ (Lowered t layout) (branches.map Prod.fst) conditions)
      (ofResults : List.Forall₂ (Lowered t layout) (branches.map Prod.snd) results)
      (ofFallback : Lowered t layout fallback s) :
      Lowered t layout (case branches fallback type) (.selections s (conditions.zip results))

/-! ## Success -/

omit [Scalar W] in
/-- Everything that is not a list of numbers has a constant in the shader. -/
theorem ShaderExpr.exists_ofValue? {value : Value W N} (shown : value.type ≠ .numberArray) :
    ∃ e : ShaderExpr N, ofValue? value = some e := by
  cases value with
  | numberArray items => exact absurd rfl shown
  | _ => exact ⟨_, rfl⟩

omit [Scalar W] [Scalar N] [Precision W N] in
/-- No operator takes a list of numbers. -/
theorem Operator.Accepts.ne_numberArray {op : Operator} {types : List ValueType}
    (accepts : op.Accepts types) : ∀ type ∈ types, type ≠ .numberArray := by
  intro type member
  obtain ⟨-, expected⟩ := accepts
  split at expected
  · obtain ⟨common, shown, same⟩ := expected
    exact same type member ▸ shown
  · rw [expected type member]
    cases op <;> decide

namespace Expr

variable {t : Target W N} {env : Environment W N}

theorem yields_constant {e : Expr W N} {value : Value W N}
    (shared : e.isFeatureDependent = false) (still : e.isFrameDependent = false)
    (evaluated : e.evaluate t.constantContext = .ok value) (shown : value.type ≠ .numberArray)
    (layout : UniformLayout) :
    Yields (t.constant value) layout fun final s => Lowered t final e s := by
  obtain ⟨s, constant⟩ := ShaderExpr.exists_ofValue? shown
  rw [Target.constant, constant]
  exact .pure fun final => .constant shared still evaluated constant

theorem yields_folded {e : Expr W N} {value : Value W N} (typed : e.WellTyped env)
    (shown : e.type ≠ .numberArray) (folded : t.folded? e = some value) (layout : UniformLayout) :
    Yields (t.constant value) layout fun final s => Lowered t final e s := by
  rw [Target.folded?] at folded
  split at folded
  next reads =>
    simp only [Bool.and_eq_true, Bool.not_eq_true'] at reads
    obtain ⟨other, evaluated, ofType⟩ := exists_evaluate_shared typed reads.1.2 t.constantContext
    rw [evaluated] at folded
    cases folded
    exact yields_constant reads.1.2 reads.2 evaluated (ofType ▸ shown) layout
  next => cases folded

theorem yields_lowerAll {args : List (Expr W N)} (layout : UniformLayout)
    (each : ∀ arg ∈ args, ∀ layout, Yields (arg.lower t) layout fun final s =>
      Lowered t final arg s) :
    Yields (lowerAll t args) layout fun final ss => List.Forall₂ (Lowered t final) args ss := by
  induction args generalizing layout with
  | nil => exact .pure fun _ => .nil
  | cons arg rest ih =>
    obtain ⟨first, others⟩ := List.forall_mem_cons.1 each
    rw [lowerAll]
    refine (first layout).bind fun s after => (ih after others).bind fun ss last => ?_
    exact .pure fun final ofRest ofFirst => .cons ofFirst ofRest

theorem yields_lowerStops {stops : List (W × Expr W N)} (layout : UniformLayout)
    (each : ∀ stop ∈ stops, ∀ layout,
      Yields (stop.2.lower t) layout fun final s => Lowered t final stop.2 s) :
    Yields (lowerStops t stops) layout fun final lowered =>
      ∃ outputs, List.Forall₂ (Lowered t final) (stops.map Prod.snd) outputs ∧
        lowered = (stops.map Prod.fst).zip outputs := by
  induction stops generalizing layout with
  | nil => exact .pure fun _ => ⟨[], .nil, rfl⟩
  | cons stop rest ih =>
    obtain ⟨first, others⟩ := List.forall_mem_cons.1 each
    rw [lowerStops]
    refine (first layout).bind fun s after => (ih after others).bind fun lowered last => ?_
    refine .pure fun final ofRest ofFirst => ?_
    obtain ⟨outputs, ofRest, rfl⟩ := ofRest
    exact ⟨s :: outputs, .cons ofFirst ofRest, rfl⟩

theorem yields_lowerBranches {branches : List (Expr W N × Expr W N)} (otherwise : ShaderExpr N)
    (layout : UniformLayout)
    (each : ∀ branch ∈ branches,
      (∀ layout, Yields (branch.1.lower t) layout fun final s => Lowered t final branch.1 s) ∧
      ∀ layout, Yields (branch.2.lower t) layout fun final s => Lowered t final branch.2 s) :
    Yields (lowerBranches t otherwise branches) layout fun final s =>
      ∃ conditions results, List.Forall₂ (Lowered t final) (branches.map Prod.fst) conditions ∧
        List.Forall₂ (Lowered t final) (branches.map Prod.snd) results ∧
        s = .selections otherwise (conditions.zip results) := by
  induction branches generalizing layout with
  | nil => exact .pure fun _ => ⟨[], [], .nil, .nil, rfl⟩
  | cons branch rest ih =>
    obtain ⟨⟨ofCondition, ofResult⟩, others⟩ := List.forall_mem_cons.1 each
    rw [lowerBranches]
    refine (ih layout others).bind fun inner after => (ofResult after).bind fun result next => ?_
    refine (ofCondition next).bind fun condition last =>
      .pure fun final lowered lowered' ofRest => ?_
    obtain ⟨conditions, results, ofConditions, ofResults, rfl⟩ := ofRest
    exact ⟨condition :: conditions, result :: results, .cons lowered ofConditions,
      .cons lowered' ofResults, rfl⟩

theorem yields_input (source : FrameInput) (type : ValueType) (layout : UniformLayout) :
    Yields (Target.input (N := N) source type) layout fun final s =>
      Lowered t final (input source type) s := by
  let slot : UniformSlot :=
    ⟨UniformLayout.inputName source, ShaderType.of type, .frame source⟩
  obtain ⟨declared, member, filled, named⟩ := layout.exists_declared slot
  refine ⟨_, (layout.declare slot).1, rfl, layout.extends_declare slot, fun final later => ?_⟩
  have lowered :
      Lowered t final (input source type) (.uniform declared.name (ShaderType.of type)) :=
    .input (later.mem member) filled
  rwa [named] at lowered

/-- Lowering succeeds on a well-typed tree that is no list of numbers, calls no host and reads
only properties that have an attribute. -/
theorem yields_lower (e : Expr W N) (typed : e.WellTyped env) (shown : e.type ≠ .numberArray)
    (planned : ∀ node ∈ e.nodes, ∀ name type, node = property name type →
      ∃ unpacked, t.plan.unpackedProperty? name = some unpacked)
    (hostless : ∀ node ∈ e.nodes, node.isExternal = false) (layout : UniformLayout) :
    Yields (e.lower t) layout fun final s => Lowered t final e s := by
  induction e using structural generalizing layout with
  | literal value =>
    rw [lower]
    exact yields_constant rfl rfl rfl shown layout
  | property name type =>
    obtain ⟨unpacked, found⟩ := planned _ (mem_nodes_self _) name type rfl
    rw [lower]
    split
    next folded => exact yields_folded typed shown folded layout
    next =>
      simp only [Target.featureProperty, found]
      exact .pure fun _ => .property found
  | input source type =>
    rw [lower]
    split
    next folded => exact yields_folded typed shown folded layout
    next => exact yields_input source type layout
  | external id type => cases hostless _ (mem_nodes_self _)
  | operator op args type ih =>
    obtain ⟨⟨-, accepted⟩, ofArgs⟩ := wellTyped_operator_iff.1 typed
    obtain ⟨-, planned⟩ := forall_nodes_operator.1 planned
    obtain ⟨-, hostless⟩ := forall_nodes_operator.1 hostless
    rw [lower]
    split
    next folded => exact yields_folded typed shown folded layout
    next =>
      have each (arg : Expr W N) (member : arg ∈ args) (layout : UniformLayout) :=
        ih arg member (ofArgs arg member)
          (accepted.ne_numberArray _ (List.mem_map_of_mem member)) (planned arg member)
          (hostless arg member) layout
      refine (yields_lowerAll layout each).bind fun operands after => ?_
      exact .pure fun final ofArgs => .operator ofArgs
  | interpolate curve x stops type ihInput ihStops =>
    obtain ⟨⟨ofNumber, -, blendable, outputs, -⟩, ofInput, ofStops⟩ :=
      wellTyped_interpolate_iff.1 typed
    obtain ⟨-, plannedInput, planned⟩ := forall_nodes_interpolate.1 planned
    obtain ⟨-, hostlessInput, hostless⟩ := forall_nodes_interpolate.1 hostless
    have shownInput : x.type ≠ .numberArray := by rw [ofNumber]; decide
    rw [lower]
    split
    next folded => exact yields_folded typed shown folded layout
    next =>
      have each (stop : W × Expr W N) (member : stop ∈ stops) (layout : UniformLayout) :=
        ihStops stop member (ofStops stop member) (outputs stop member ▸ shown)
          (planned stop member) (hostless stop member) layout
      refine (ihInput ofInput shownInput plannedInput hostlessInput layout).bind fun s after => ?_
      refine (yields_lowerStops after each).bind fun lowered last =>
        .pure fun final ofStops ofInput => ?_
      obtain ⟨outputs, ofStops, rfl⟩ := ofStops
      exact .interpolate ofInput ofStops
  | case branches fallback type ihBranches ihFallback =>
    obtain ⟨⟨ofType, types⟩, ofBranches, ofFallback⟩ := wellTyped_case_iff.1 typed
    obtain ⟨-, planned, plannedFallback⟩ := forall_nodes_case.1 planned
    obtain ⟨-, hostless, hostlessFallback⟩ := forall_nodes_case.1 hostless
    rw [lower]
    split
    next folded => exact yields_folded typed shown folded layout
    next =>
      refine (ihFallback ofFallback (ofType ▸ shown) plannedFallback hostlessFallback layout).bind
        fun otherwise after => ?_
      refine (yields_lowerBranches otherwise after fun branch member => ?_).weaken
        fun final s ofBranches ofFallback => ?_
      · obtain ⟨ofCondition, ofResult⟩ := ofBranches branch member
        obtain ⟨condition, result⟩ := types branch member
        have shownCondition : branch.1.type ≠ .numberArray := by rw [condition]; decide
        exact ⟨(ihBranches branch member).1 ofCondition shownCondition (planned branch member).1
            (hostless branch member).1,
          (ihBranches branch member).2 ofResult (result ▸ shown) (planned branch member).2
            (hostless branch member).2⟩
      · obtain ⟨conditions, results, ofConditions, ofResults, rfl⟩ := ofBranches
        exact .case ofConditions ofResults ofFallback

end Expr

end MapStyle
