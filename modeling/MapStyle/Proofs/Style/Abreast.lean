import MapStyle.Proofs.Style.Digest
import MapStyle.Proofs.Style.Typing

/-!
# Two styles, compiled side by side

Styles with one canonical form declare the same uniforms in the same order, although their literals
may differ: which subtrees are folded is decided on what they read, and the places of attributes on
what is requested. So a property of the one has the shader value it has in the other unless its own
literals differ, whatever those of other properties are. `Abreast` is the relation between two
computations that carries this through: they go from one layout to one layout.
-/

namespace MapStyle

variable {W N : Type}

/-! ## Computations from one layout to one layout -/

/-- Either both of two computations failed or their results are related. -/
inductive Ends {ε α β : Type} (related : α → β → Prop) : Except ε α → Except ε β → Prop
  | ok {a b} (results : related a b) : Ends related (.ok a) (.ok b)
  | error {e f} : Ends related (.error e) (.error f)

theorem Ends.weaken {ε α β : Type} {related other : α → β → Prop} {x : Except ε α}
    {y : Except ε β} (ends : Ends related x y) (implies : ∀ a b, related a b → other a b) :
    Ends other x y := by
  cases ends with
  | ok results => exact .ok (implies _ _ results)
  | error => exact .error

/-- Two computations that start from one layout end with one layout, and with related results unless
both fail. -/
def Abreast {α β : Type} (m : Lowering α) (n : Lowering β) (related : α → β → Prop) : Prop :=
  ∀ layout : UniformLayout, (m.run.run layout).2 = (n.run.run layout).2 ∧
    Ends related (m.run.run layout).1 (n.run.run layout).1

namespace Abreast

variable {α β γ δ : Type} {related : α → β → Prop}

theorem pure {a : α} {b : β} (results : related a b) : Abreast (pure a) (pure b) related :=
  fun _ => ⟨rfl, .ok results⟩

theorem throw {e f : CompileError} : Abreast (throw e) (throw f) related := fun _ => ⟨rfl, .error⟩

theorem refl {related : α → α → Prop} (m : Lowering α) (same : ∀ a, related a a) :
    Abreast m m related := by
  intro layout
  refine ⟨rfl, ?_⟩
  cases (m.run.run layout).1 with
  | ok a => exact .ok (same a)
  | error e => exact .error

theorem weaken {other : α → β → Prop} {m : Lowering α} {n : Lowering β}
    (abreast : Abreast m n related) (implies : ∀ a b, related a b → other a b) :
    Abreast m n other :=
  fun layout => ⟨(abreast layout).1, (abreast layout).2.weaken implies⟩

theorem bind {m : Lowering α} {n : Lowering β} {f : α → Lowering γ} {g : β → Lowering δ}
    {result : γ → δ → Prop} (first : Abreast m n related)
    (next : ∀ a b, related a b → Abreast (f a) (g b) result) :
    Abreast (m >>= f) (n >>= g) result := by
  intro layout
  obtain ⟨grown, ends⟩ := first layout
  rw [ExceptT.run_bind, StateT.run_bind, ExceptT.run_bind, StateT.run_bind]
  cases left : m.run.run layout with
  | mk outcome after =>
    cases right : n.run.run layout with
    | mk outcome' after' =>
      rw [left, right] at grown ends
      obtain rfl : after = after' := grown
      cases ends with
      | ok results => exact next _ _ results after
      | error => exact ⟨rfl, .error⟩

end Abreast

/-! ## Expressions -/

variable [Scalar W] [Scalar N]

/-- The name of an attribute does not depend on the literals of its source. -/
theorem Plan.unpackedProperty?_canonical (plan : Plan W N) (name : String) :
    plan.canonical.unpackedProperty? name = plan.unpackedProperty? name := by
  rw [unpackedProperty?, canonical, List.findSome?_map, unpackedProperty?]
  congr 1
  funext a
  cases source : a.source <;> simp [Attribute.canonical, source, AttributeSource.canonical]

theorem Plan.evaluated?_canonical (plan : Plan W N) (property : StyleProperty) :
    plan.canonical.evaluated? property = (plan.evaluated? property).map Attribute.canonical := by
  rw [evaluated?, canonical, List.find?_map, evaluated?]
  congr 2
  funext a
  cases source : a.source <;> simp [Attribute.canonical, source, AttributeSource.canonical]

variable [Precision W N]

/-- Two targets name the attributes of feature properties alike. -/
def Target.NamesAlike (t t' : Target W N) : Prop :=
  ∀ name, t.plan.unpackedProperty? name = t'.plan.unpackedProperty? name

namespace Expr

/-- Two trees are lowered side by side, and to the same if they are the same. -/
def LoweredAlike (t t' : Target W N) (e f : Expr W N) : Prop :=
  Abreast (e.lower t) (f.lower t') fun s s' => e = f → s = s'

variable {t t' : Target W N} {env env' : Environment W N} {e f : Expr W N}

omit [Precision W N] in
theorem isNone_literal?_canonical (e : Expr W N) :
    e.canonical.literal?.isNone = e.literal?.isNone := by
  cases e <;> rfl

variable (t t') in
/-- Trees with one canonical form are both folded or neither is, and to values of one type. -/
theorem folded?_alike (typed : e.WellTyped env) (typed' : f.WellTyped env')
    (same : e.canonical = f.canonical) :
    Option.Rel (fun u v : Value W N => u.type = v.type ∧ (e = f → u = v)) (t.folded? e)
      (t'.folded? f) := by
  have literals : f.literal?.isNone = e.literal?.isNone := by
    rw [← isNone_literal?_canonical, ← same, isNone_literal?_canonical]
  have features : f.isFeatureDependent = e.isFeatureDependent := by
    rw [← isFeatureDependent_canonical, ← same, isFeatureDependent_canonical]
  have frames : f.isFrameDependent = e.isFrameDependent := by
    rw [← isFrameDependent_canonical, ← same, isFrameDependent_canonical]
  have types : e.type = f.type := by
    rw [← e.type_canonical, same, f.type_canonical]
  rw [Target.folded?, Target.folded?, literals, features, frames]
  split
  next reads =>
    simp only [Bool.and_eq_true, Bool.not_eq_true'] at reads
    obtain ⟨u, evaluated, ofType⟩ := exists_evaluate_shared typed reads.1.2 t.constantContext
    obtain ⟨v, evaluated', ofType'⟩ :=
      exists_evaluate_shared typed' (features.trans reads.1.2) t'.constantContext
    rw [evaluated, evaluated']
    refine .some ⟨ofType.trans (types.trans ofType'.symm), ?_⟩
    rintro rfl
    have constant := evaluate_constant reads.1.2 reads.2 t.constantContext t'.constantContext
    rw [evaluated, evaluated'] at constant
    exact Except.ok.inj constant
  next => exact .none

omit [Scalar W] in
theorem abreast_constant {u v : Value W N} (types : u.type = v.type) {same : Prop}
    (values : same → u = v) :
    Abreast (t.constant u) (t'.constant v) fun s s' => same → s = s' := by
  have shown : (ShaderExpr.ofValue? u : Option (ShaderExpr N)).isSome =
      (ShaderExpr.ofValue? v : Option (ShaderExpr N)).isSome := by
    cases u <;> cases v <;> first | rfl | cases types
  rw [Target.constant, Target.constant]
  cases first : (ShaderExpr.ofValue? u : Option (ShaderExpr N)) with
  | none =>
    rw [first, Option.isSome_none, eq_comm, Option.isSome_eq_false_iff, Option.isNone_iff_eq_none]
      at shown
    rw [shown]
    exact .throw
  | some s =>
    rw [first, Option.isSome_some, eq_comm, Option.isSome_iff_exists] at shown
    obtain ⟨s', second⟩ := shown
    rw [second]
    refine .pure fun given => ?_
    rw [values given, second] at first
    exact Option.some.inj first.symm

variable (t t') in
/-- It is enough to see how two trees are lowered when they are not folded. -/
theorem abreast_folded (typed : e.WellTyped env) (typed' : f.WellTyped env')
    (same : e.canonical = f.canonical) {m n : Lowering (ShaderExpr N)}
    (unfolded : Abreast m n fun s s' => e = f → s = s') :
    Abreast (match t.folded? e with | some value => t.constant value | none => m)
      (match t'.folded? f with | some value => t'.constant value | none => n)
      fun s s' => e = f → s = s' := by
  have folded := folded?_alike t t' typed typed' same
  generalize t.folded? e = u, t'.folded? f = v at folded
  cases folded with
  | none => exact unfolded
  | some values => exact abreast_constant values.1 values.2

theorem abreast_lowerAll {args args' : List (Expr W N)}
    (each : List.Forall₂ (LoweredAlike t t') args args') :
    Abreast (lowerAll t args) (lowerAll t' args') fun ss ss' => args = args' → ss = ss' := by
  induction each with
  | nil => exact .pure fun _ => rfl
  | cons first _ ih =>
    rw [lowerAll, lowerAll]
    refine first.bind fun s s' ofFirst => ih.bind fun ss ss' ofRest => .pure fun same => ?_
    obtain ⟨sameFirst, sameRest⟩ := List.cons.inj same
    rw [ofFirst sameFirst, ofRest sameRest]

theorem abreast_lowerStops {stops stops' : List (W × Expr W N)}
    (each : List.Forall₂ (fun stop stop' => stop.1 = stop'.1 ∧ LoweredAlike t t' stop.2 stop'.2)
      stops stops') :
    Abreast (lowerStops t stops) (lowerStops t' stops') fun ss ss' =>
      stops = stops' → ss = ss' := by
  induction each with
  | nil => exact .pure fun _ => rfl
  | cons first _ ih =>
    rw [lowerStops, lowerStops]
    refine first.2.bind fun s s' ofFirst => ih.bind fun ss ss' ofRest => .pure fun same => ?_
    obtain ⟨sameFirst, sameRest⟩ := List.cons.inj same
    rw [first.1, ofFirst (congrArg Prod.snd sameFirst), ofRest sameRest]

theorem abreast_lowerBranches {branches branches' : List (Expr W N × Expr W N)}
    (each : List.Forall₂ (fun branch branch' => LoweredAlike t t' branch.1 branch'.1 ∧
      LoweredAlike t t' branch.2 branch'.2) branches branches')
    (otherwise otherwise' : ShaderExpr N) :
    Abreast (lowerBranches t otherwise branches) (lowerBranches t' otherwise' branches')
      fun s s' => otherwise = otherwise' → branches = branches' → s = s' := by
  induction each with
  | nil => exact .pure fun same _ => same
  | cons first _ ih =>
    rw [lowerBranches, lowerBranches]
    refine ih.bind fun rest rest' ofRest => first.2.bind fun result result' ofResult =>
      first.1.bind fun condition condition' ofCondition => .pure fun sameOtherwise same => ?_
    obtain ⟨sameFirst, sameRest⟩ := List.cons.inj same
    rw [ofRest sameOtherwise sameRest, ofResult (congrArg Prod.snd sameFirst),
      ofCondition (congrArg Prod.fst sameFirst)]

/-- Well-typed trees with one canonical form are lowered side by side. -/
theorem loweredAlike (names : t.NamesAlike t') (e : Expr W N) :
    ∀ f : Expr W N, e.WellTyped env → f.WellTyped env' → e.canonical = f.canonical →
      LoweredAlike t t' e f := by
  -- The canonical form tells that the second tree has the shape of the first, form by form.
  induction e using structural with
  | literal value =>
    intro f typed typed' same
    cases f with
    | literal other =>
      unfold LoweredAlike
      rw [lower, lower]
      refine abreast_folded t t' typed typed' same (abreast_constant ?_ literal.inj)
      have types := congrArg Expr.type same
      rwa [type_canonical, type_canonical] at types
    | _ => cases same
  | property name type =>
    intro f typed typed' same
    cases f with
    | property name' type' =>
      cases same
      unfold LoweredAlike
      rw [lower, lower]
      refine abreast_folded t t' typed typed' rfl ?_
      rw [Target.featureProperty, Target.featureProperty, names name]
      split
      next => exact .pure fun _ => rfl
      next => exact .throw
    | _ => cases same
  | input source type =>
    intro f typed typed' same
    cases f with
    | input source' type' =>
      cases same
      unfold LoweredAlike
      rw [lower, lower]
      exact abreast_folded t t' typed typed' rfl (.refl _ fun _ _ => rfl)
    | _ => cases same
  | external id type =>
    intro f typed typed' same
    cases f with
    | external id' type' =>
      cases same
      unfold LoweredAlike
      rw [lower, lower]
      exact abreast_folded t t' typed typed' rfl .throw
    | _ => cases same
  | operator op args type ih =>
    intro f typed typed' same
    cases f with
    | operator op' args' type' =>
      have parts := same
      simp only [canonical, canonicalAll_eq, operator.injEq] at parts
      obtain ⟨rfl, sameArgs, rfl⟩ := parts
      have each : List.Forall₂ (LoweredAlike t t') args args' :=
        forall₂_of_map_eq sameArgs fun arg member arg' member' => ih arg member arg'
          ((wellTyped_operator_iff.1 typed).2 arg member)
          ((wellTyped_operator_iff.1 typed').2 arg' member')
      unfold LoweredAlike
      rw [lower, lower]
      refine abreast_folded t t' typed typed' same ((abreast_lowerAll each).bind
        fun ss ss' operands => .pure fun equal => ?_)
      rw [operands (operator.inj equal).2.1]
    | _ => cases same
  | interpolate curve x stops type ihInput ihStops =>
    intro f typed typed' same
    cases f with
    | interpolate curve' x' stops' type' =>
      have parts := same
      simp only [canonical, canonicalStops_eq, interpolate.injEq] at parts
      obtain ⟨rfl, sameInput, sameStops, rfl⟩ := parts
      obtain ⟨-, ofInput, ofStops⟩ := wellTyped_interpolate_iff.1 typed
      obtain ⟨-, ofInput', ofStops'⟩ := wellTyped_interpolate_iff.1 typed'
      have each : List.Forall₂ (fun stop stop' => stop.1 = stop'.1 ∧
          LoweredAlike t t' stop.2 stop'.2) stops stops' := by
        refine forall₂_of_map_eq sameStops fun stop member stop' member' sameStop => ?_
        obtain ⟨place, output⟩ := Prod.mk.inj sameStop
        exact ⟨place, ihStops stop member stop'.2 (ofStops stop member) (ofStops' stop' member')
          output⟩
      unfold LoweredAlike
      rw [lower, lower]
      refine abreast_folded t t' typed typed' same ((ihInput x' ofInput ofInput' sameInput).bind
        fun s s' ofX => (abreast_lowerStops each).bind fun ss ss' outputs =>
          .pure fun equal => ?_)
      obtain ⟨-, equalInput, equalStops, -⟩ := interpolate.inj equal
      rw [ofX equalInput, outputs equalStops]
    | _ => cases same
  | case branches fallback type ihBranches ihFallback =>
    intro f typed typed' same
    cases f with
    | case branches' fallback' type' =>
      have parts := same
      simp only [canonical, canonicalBranches_eq, case.injEq] at parts
      obtain ⟨sameBranches, sameFallback, rfl⟩ := parts
      obtain ⟨-, ofBranches, ofFallback⟩ := wellTyped_case_iff.1 typed
      obtain ⟨-, ofBranches', ofFallback'⟩ := wellTyped_case_iff.1 typed'
      have each : List.Forall₂ (fun branch branch' => LoweredAlike t t' branch.1 branch'.1 ∧
          LoweredAlike t t' branch.2 branch'.2) branches branches' := by
        refine forall₂_of_map_eq sameBranches fun branch member branch' member' sameBranch => ?_
        obtain ⟨condition, result⟩ := Prod.mk.inj sameBranch
        exact ⟨(ihBranches branch member).1 branch'.1 (ofBranches branch member).1
            (ofBranches' branch' member').1 condition,
          (ihBranches branch member).2 branch'.2 (ofBranches branch member).2
            (ofBranches' branch' member').2 result⟩
      unfold LoweredAlike
      rw [lower, lower]
      refine abreast_folded t t' typed typed' same ((ihFallback fallback' ofFallback ofFallback'
        sameFallback).bind fun s s' otherwise => ?_)
      refine (abreast_lowerBranches each s s').weaken fun _ _ selections equal => ?_
      obtain ⟨equalBranches, equalFallback, -⟩ := case.inj equal
      exact selections (otherwise equalFallback) equalBranches
    | _ => cases same

end Expr

/-! ## Properties -/

/-- A property as two styles with one canonical form compile it. -/
structure CompiledProperty.Alike (p q : CompiledProperty W N) : Prop where
  property : p.property = q.property
  tier : p.tier = q.tier
  canonical : p.expr.canonical = q.expr.canonical
  /-- The literals matter where the shader computes the property. -/
  shader : (p.tier = .inline → p.expr = q.expr) → p.shader = q.shader

namespace ParsedStyle

variable {style other : ParsedStyle W N}

/-- An expression of one style and one of another have one canonical form and are well-typed. -/
structure Paired (style other : ParsedStyle W N) (entry entry' : StyleProperty × Expr W N) :
    Prop where
  property : entry.1 = entry'.1
  canonical : entry.2.canonical = entry'.2.canonical
  typed : entry.2.WellTyped style.environment
  typed' : entry'.2.WellTyped other.environment

omit [Precision W N] in
theorem paired_of_canonical (sound : style.Sound) (sound' : other.Sound)
    (same : style.canonical = other.canonical) :
    List.Forall₂ (Paired style other) style.properties other.properties := by
  refine forall₂_of_map_eq (congrArg properties same) fun entry member entry' member' alike => ?_
  obtain ⟨property, canonical⟩ := Prod.mk.inj alike
  exact ⟨property, canonical, (sound.typed entry member).2, (sound'.typed entry' member').2⟩

variable {plan plan' : Plan W N} {entry entry' : StyleProperty × Expr W N}

theorem Paired.abreast (paired : Paired style other entry entry')
    (plans : plan.canonical = plan'.canonical) :
    Abreast (style.shaderValue plan entry.1 entry.2) (other.shaderValue plan' entry'.1 entry'.2)
      fun shader shader' =>
        (Tier.of entry.1 entry.2 = .inline → entry.2 = entry'.2) → shader = shader' := by
  obtain ⟨property, e⟩ := entry
  obtain ⟨property', f⟩ := entry'
  obtain ⟨rfl, same, typed, typed'⟩ := paired
  have tiers : Tier.of property f = Tier.of property e := by
    rw [← Tier.of_canonical, ← same, Tier.of_canonical]
  unfold shaderValue
  rw [tiers]
  cases tier : Tier.of property e with
  | uniform => exact .refl _ fun _ _ => rfl
  -- Only here do literals reach the shader.
  | inline =>
    have names : (style.target plan property).NamesAlike (other.target plan' property) := by
      intro name
      show plan.unpackedProperty? name = plan'.unpackedProperty? name
      rw [← plan.unpackedProperty?_canonical, plans, plan'.unpackedProperty?_canonical]
    refine (Expr.loweredAlike names e f typed typed' same).bind fun s s' equal =>
      .pure fun given => ?_
    rw [equal (given rfl)]
  | preEvaluated =>
    have found := congrArg (·.evaluated? property) plans
    simp only [Plan.evaluated?_canonical] at found
    cases first : plan.evaluated? property with
    | none =>
      rw [first, Option.map_none, eq_comm, Option.map_eq_none_iff] at found
      simp only [found]
      exact .throw
    | some a =>
      rw [first, Option.map_some, eq_comm, Option.map_eq_some_iff] at found
      obtain ⟨a', second, alike⟩ := found
      simp only [second]
      refine .pure fun _ => ?_
      have name : a'.unpackedName = a.unpackedName := (congrArg Attribute.unpackedName alike :)
      have type : a'.type = a.type := (congrArg Attribute.type alike :)
      rw [Attribute.shaderType, Attribute.shaderType, name, type]
  | cull | cpuOnly => exact .pure fun _ => rfl

theorem abreast_compiledProperties {entries entries' : List (StyleProperty × Expr W N)}
    (paired : List.Forall₂ (Paired style other) entries entries')
    (plans : plan.canonical = plan'.canonical) :
    Abreast (style.compiledProperties plan entries) (other.compiledProperties plan' entries')
      (List.Forall₂ CompiledProperty.Alike) := by
  induction paired with
  | nil => exact .pure .nil
  | cons first _ ih =>
    rw [compiledProperties, compiledProperties]
    refine (first.abreast plans).bind fun shader shader' equal => ih.bind fun rest rest' alike =>
      .pure (.cons ⟨first.property, ?_, first.canonical, equal⟩ alike)
    rw [← Tier.of_canonical, first.property, first.canonical, Tier.of_canonical]

end ParsedStyle

end MapStyle
