import MapStyle.Proofs.Expr.Congruence
import MapStyle.Proofs.Style.Typing

/-!
# Other defaults of the same types

An expression knows the variables of its style by their types. With other defaults of these types
a style is parsed to the same trees and compiled to the same properties, over the same plan and
the same layout: the defaults themselves are looked at in a frame and nowhere before.
-/

namespace MapStyle

variable {W N : Type}

variable [Scalar W] [Scalar N] [Precision W N]

/-! ## Lowering -/

namespace Expr

variable (t : Target W N) (bindings : Dictionary (Value W N))

/-- A subtree that reads nothing has one value whatever the defaults are. -/
theorem folded?_congr (e : Expr W N) : Target.folded? { t with bindings } e = t.folded? e := by
  unfold Target.folded?
  split
  next reads =>
    simp only [Bool.and_eq_true, Bool.not_eq_true'] at reads
    rw [evaluate_constant reads.1.2 reads.2 _ t.constantContext]
  next => rfl

variable {t bindings}

theorem lowerAll_congr {args : List (Expr W N)}
    (each : ∀ arg ∈ args, arg.lower { t with bindings } = arg.lower t) :
    lowerAll { t with bindings } args = lowerAll t args := by
  induction args with
  | nil => rfl
  | cons arg rest ih =>
    obtain ⟨first, others⟩ := List.forall_mem_cons.1 each
    rw [lowerAll, lowerAll, first, ih others]

theorem lowerStops_congr {stops : List (W × Expr W N)}
    (each : ∀ stop ∈ stops, stop.2.lower { t with bindings } = stop.2.lower t) :
    lowerStops { t with bindings } stops = lowerStops t stops := by
  induction stops with
  | nil => rfl
  | cons stop rest ih =>
    obtain ⟨first, others⟩ := List.forall_mem_cons.1 each
    rw [lowerStops, lowerStops, first, ih others]

theorem lowerBranches_congr {branches : List (Expr W N × Expr W N)} (otherwise : ShaderExpr N)
    (each : ∀ branch ∈ branches, branch.1.lower { t with bindings } = branch.1.lower t ∧
      branch.2.lower { t with bindings } = branch.2.lower t) :
    lowerBranches { t with bindings } otherwise branches = lowerBranches t otherwise branches := by
  induction branches with
  | nil => rfl
  | cons branch rest ih =>
    obtain ⟨⟨ofCondition, ofResult⟩, others⟩ := List.forall_mem_cons.1 each
    rw [lowerBranches, lowerBranches, ofCondition, ofResult, ih others]

/-- A tree is lowered alike whatever the defaults are. -/
theorem lower_congr (e : Expr W N) : e.lower { t with bindings } = e.lower t := by
  induction e using structural with
  | literal | property | input | external =>
    rw [lower, lower, folded?_congr]
    rfl
  | operator op args type ih =>
    rw [lower, lower, folded?_congr, lowerAll_congr ih]
    rfl
  | interpolate curve x stops type ihInput ihStops =>
    rw [lower, lower, folded?_congr, ihInput, lowerStops_congr ihStops]
    rfl
  | case branches fallback type ihBranches ihFallback =>
    simp only [lower, folded?_congr, ihFallback, fun s => lowerBranches_congr s ihBranches]
    rfl

end Expr

/-! ## Styles -/

namespace ParsedStyle

variable (style : ParsedStyle W N) (bindings : Dictionary (Value W N))

theorem compiledProperties_congr (plan : Plan W N) (entries : List (StyleProperty × Expr W N)) :
    compiledProperties { style with bindings } plan entries =
      style.compiledProperties plan entries := by
  have shaderValue_congr (entry : StyleProperty × Expr W N) :
      shaderValue { style with bindings } plan entry.1 entry.2 =
        style.shaderValue plan entry.1 entry.2 := by
    have lowered : entry.2.lower { style.target plan entry.1 with bindings } =
        entry.2.lower (style.target plan entry.1) := Expr.lower_congr entry.2
    simp only [target] at lowered
    simp only [shaderValue, lowered]
  induction entries with
  | nil => rfl
  | cons entry rest ih => rw [compiledProperties, compiledProperties, shaderValue_congr, ih]

/-- With other defaults a style compiles to the same properties over the same plan and layout. -/
theorem lower_redeclared {compiled : CompiledStyle W N} (ran : style.lower = .ok compiled) :
    ∃ redeclared, lower { style with bindings } = .ok redeclared ∧
      redeclared.properties = compiled.properties ∧ redeclared.plan = compiled.plan ∧
      redeclared.uniforms = compiled.uniforms ∧ redeclared.bindings = bindings ∧
      redeclared.externals = style.externals := by
  obtain ⟨made, requested, planned, run, -⟩ := run_of_lower ran
  have requestedAlike : requests { style with bindings } = .ok made := requested
  rw [planned, ← compiledProperties_congr style bindings] at run
  unfold lower
  simp only [requestedAlike, run, bind, Except.bind, pure, Except.pure]
  exact ⟨_, rfl, rfl, planned.symm, rfl, rfl, rfl⟩

theorem parsedAlone_congr {env other : Environment W N} (alike : env.Alike other) (name : String)
    (json : Json) : parsedAlone env name json = parsedAlone other name json := by
  simp only [parsedAlone_eq, Parse.property_congr alike]

/-- A specification whose variables have other defaults of the same types is parsed to the same
properties. -/
theorem ofSpec_redeclared {spec spec' : StyleSpec W N} (parsed : ofSpec spec = .ok style)
    (properties : spec'.properties = spec.properties) (schema : spec'.schema = spec.schema)
    (externals : spec'.externals = spec.externals) (declared : spec'.variableValues = .ok bindings)
    (types : ∀ name, (bindings.get? name).map Value.type =
      (style.bindings.get? name).map Value.type) :
    ofSpec spec' = .ok { style with bindings } := by
  unfold ofSpec at parsed ⊢
  split at parsed
  next => cases parsed
  next earlier declaredEarlier =>
    simp only at parsed
    split at parsed
    next => cases parsed
    next entries ran =>
      cases parsed
      have alike : Environment.Alike (⟨spec.schema, bindings, spec.externals⟩ : Environment W N)
          ⟨spec.schema, earlier, spec.externals⟩ := ⟨rfl, rfl, types⟩
      rw [parseProperties_eq_mapM, Parser.start_environment] at ran
      have alone : parsedAlone ⟨spec.schema, bindings, spec.externals⟩ =
          parsedAlone ⟨spec.schema, earlier, spec.externals⟩ := by
        funext name json
        exact parsedAlone_congr alike name json
      simp only [declared, properties, schema, externals, parseProperties_eq_mapM,
        Parser.start_environment, alone, ran]

end ParsedStyle

end MapStyle
