import MapStyle.Proofs.Shader.Curves

/-!
# Lowered trees simulate their source

Where the names of a scope hold the images of what a tree reads in a context, the shader
expression that a well-typed tree was lowered to evaluates to the image of the tree's value.
The proof goes over the forms of a tree; what each form needs of its operands is said by the
lemmas on operators and curves.
-/

namespace MapStyle

variable {K : Type} [Field K] [LinearOrder K] [FloorRing K] [Elementary K]

/-- The two strings an equality compares have different numbers, unless they are equal. -/
def Expr.ComparesApart (c : Context K K) : Expr K K → Prop
  | operator op [left, right] _ => op = .equal ∨ op = .notEqual → ∀ a b,
      left.evaluate c = .ok (.string a) → right.evaluate c = .ok (.string b) →
      stringId a = stringId b → a = b
  | _ => True

/-- A scope has the image of what a node reads in a context, and a comparison of strings can be
made there. -/
def Expr.Rendered (t : Target K K) (layout : UniformLayout) (c : Context K K)
    (scope : ShaderScope K) : Expr K K → Prop
  | property name type => type ≠ .numberArray → ∀ unpacked,
      t.plan.unpackedProperty? name = some unpacked →
      Simulates scope type (readProperty c.properties name type)
        (.unpacked unpacked (ShaderType.of type))
  | input source type => type ≠ .numberArray → ∀ slot ∈ layout.slots,
      slot.source = .frame source →
      Simulates scope type (.ok (c.read type source)) (.uniform slot.name (ShaderType.of type))
  | node => node.ComparesApart c

namespace Expr

variable {t : Target K K} {layout : UniformLayout} {c : Context K K} {scope : ShaderScope K}
  {env : Environment K K}


/-- A tree that reads nothing is simulated by the constant it was evaluated to. -/
theorem simulates_constant {e : Expr K K} {value : Value K K} {s : ShaderExpr K}
    (typed : e.WellTyped env) (shared : e.isFeatureDependent = false)
    (still : e.isFrameDependent = false) (evaluated : e.evaluate t.constantContext = .ok value)
    (shown : ShaderExpr.ofValue? value = some s) : Simulates scope e.type (e.evaluate c) s := by
  obtain ⟨other, given, ofType⟩ := exists_evaluate_shared typed shared t.constantContext
  rw [evaluated] at given
  cases given
  refine ⟨value, ?_, ofType, ShaderExpr.image?_of_ofValue? shown scope⟩
  rw [evaluate_constant shared still c t.constantContext, evaluated]

/-- Trees that are simulated one by one are simulated as a list. -/
theorem simulates_all {es : List (Expr K K)} {ss : List (ShaderExpr K)} {type : ValueType}
    (lowered : List.Forall₂ (Lowered t layout) es ss)
    (each : ∀ e ∈ es, ∀ s, Lowered t layout e s → Simulates scope type (e.evaluate c) s) :
    List.Forall₂ (Simulates scope type) (es.map (evaluate c)) ss := by
  induction lowered with
  | nil => exact .nil
  | cons first rest ih =>
    obtain ⟨ofFirst, ofRest⟩ := List.forall_mem_cons.1 each
    exact .cons (ofFirst _ first) (ih ofRest)

/-- What an operator was lowered to simulates it when its operands are simulated. -/
theorem simulates_operator {op : Operator} {args : List (Expr K K)} {operands : List (ShaderExpr K)}
    (accepted : op.Accepts (args.map Expr.type))
    (apart : (operator op args op.signature.result).ComparesApart c)
    (ofArgs : ∀ type, (∀ arg ∈ args, arg.type = type) →
      List.Forall₂ (Simulates scope type) (args.map (evaluate c)) operands) :
    Simulates scope op.signature.result (op.apply (args.map (evaluate c)))
      (.ofOperator op operands) := by
  obtain ⟨admitted, types⟩ := accepted
  rw [List.length_map] at admitted
  split at types
  next equality =>
    obtain ⟨common, -, same⟩ := types
    have ofCommon := ofArgs common fun arg member => same _ (List.mem_map_of_mem member)
    have arity : op.signature = ⟨.number, .exactly 2, .boolean⟩ := by
      rcases equality with rfl | rfl
      · rfl
      · rfl
    rw [arity] at admitted apart ⊢
    obtain ⟨least, most⟩ := Arity.admits_iff.1 admitted
    match args, least, most 2 rfl with
    | [left, right], _, _ =>
      refine Operator.simulates_applyEquality equality ofCommon (Nat.le_refl 2) ?_
      exact apart equality
    | _ :: _ :: _ :: _, _, many => simp at many
  next different =>
    refine Operator.simulates_apply different (by rwa [List.length_map]) ?_
    exact ofArgs _ fun arg member => types _ (List.mem_map_of_mem member)

/-- What a well-typed tree was lowered to evaluates to the image of the tree's value. -/
theorem simulates_lowered (e : Expr K K) {s : ShaderExpr K} (lowered : Lowered t layout e s)
    (typed : e.WellTyped env) (shown : e.type ≠ .numberArray)
    (rendered : ∀ node ∈ e.nodes, node.Rendered t layout c scope) :
    Simulates scope e.type (e.evaluate c) s := by
  induction e using structural generalizing s with
  | literal | external =>
    cases lowered with
    | constant shared still evaluated shown =>
      exact simulates_constant typed shared still evaluated shown
  | property name type =>
    cases lowered with
    | constant shared still evaluated shown =>
      exact simulates_constant typed shared still evaluated shown
    | property planned => exact rendered _ (mem_nodes_self _) shown _ planned
  | input source type =>
    cases lowered with
    | constant shared still evaluated shown =>
      exact simulates_constant typed shared still evaluated shown
    | input member filled => exact rendered _ (mem_nodes_self _) shown _ member filled
  | operator op args type ih =>
    cases lowered with
    | constant shared still evaluated shown =>
      exact simulates_constant typed shared still evaluated shown
    | operator ofArgs =>
      obtain ⟨⟨rfl, accepted⟩, typedArgs⟩ := wellTyped_operator_iff.1 typed
      obtain ⟨apart, rendered⟩ := forall_nodes_operator.1 rendered
      rw [evaluate, evaluateAll_eq]
      refine simulates_operator accepted apart fun type same => ?_
      refine simulates_all ofArgs fun arg member s lowered => ?_
      rw [← same arg member]
      exact ih arg member lowered (typedArgs arg member)
        (accepted.ne_numberArray _ (List.mem_map_of_mem member)) (rendered arg member)
  | interpolate curve x stops type ihInput ihStops =>
    cases lowered with
    | constant shared still evaluated shown =>
      exact simulates_constant typed shared still evaluated shown
    | @interpolate _ _ _ _ position outputs ofInput ofStops =>
      obtain ⟨⟨ofNumber, nonempty, blendable, types, ascending⟩, typedInput, typedStops⟩ :=
        wellTyped_interpolate_iff.1 typed
      obtain ⟨-, renderedInput, rendered⟩ := forall_nodes_interpolate.1 rendered
      have shownInput : x.type ≠ .numberArray := by rw [ofNumber]; decide
      have ofNumber : Simulates scope .number (x.evaluate c) position :=
        ofNumber ▸ ihInput ofInput typedInput shownInput renderedInput
      obtain ⟨n, given, evaluated⟩ := Simulates.number_iff.1 ofNumber
      have ofOutputs : List.Forall₂ (Simulates scope type)
          ((stops.map Prod.snd).map (evaluate c)) outputs := by
        refine simulates_all ofStops fun output member s lowered => ?_
        obtain ⟨stop, inStops, rfl⟩ := List.mem_map.1 member
        have same := types stop inStops
        rw [← same]
        exact ihStops stop inStops lowered (typedStops stop inStops) (same ▸ shown)
          (rendered stop inStops)
      have places : (((stops.map Prod.fst).zip outputs).map Prod.fst).Pairwise (· < ·) := by
        have count : (stops.map Prod.fst).length ≤ outputs.length := by
          rw [List.length_map, ← ofStops.length_eq, List.length_map]
        rw [List.map_fst_zip count, List.pairwise_map]
        exact ascending.imp Exact.lt_iff.1
      have pairs : (stops.map fun stop => (stop.1, evaluate c stop.2)) =
          (stops.map Prod.fst).zip ((stops.map Prod.snd).map (evaluate c)) := by
        rw [List.map_map, List.zip_map']
        rfl
      rw [evaluate, evaluateStops_eq, given, pairs]
      refine Curve.simulates_sample blendable places ?_ evaluated (Curve.simulates_stops ofOutputs)
      rw [← pairs]
      simpa using nonempty
  | case branches fallback type ihBranches ihFallback =>
    cases lowered with
    | constant shared still evaluated shown =>
      exact simulates_constant typed shared still evaluated shown
    | @case _ _ _ tests outputs otherwise ofConditions ofResults ofFallback =>
      obtain ⟨⟨sameType, types⟩, typedBranches, typedFallback⟩ := wellTyped_case_iff.1 typed
      obtain ⟨-, rendered, renderedFallback⟩ := forall_nodes_case.1 rendered
      have conditions : List.Forall₂ (Simulates scope .boolean)
          ((branches.map Prod.fst).map (evaluate c)) tests := by
        refine simulates_all ofConditions fun condition member s lowered => ?_
        obtain ⟨branch, inBranches, rfl⟩ := List.mem_map.1 member
        have same := (types branch inBranches).1
        rw [← same]
        refine (ihBranches branch inBranches).1 lowered (typedBranches branch inBranches).1 ?_
          (rendered branch inBranches).1
        rw [same]
        decide
      have results : List.Forall₂ (Simulates scope type)
          ((branches.map Prod.snd).map (evaluate c)) outputs := by
        refine simulates_all ofResults fun result member s lowered => ?_
        obtain ⟨branch, inBranches, rfl⟩ := List.mem_map.1 member
        have same := (types branch inBranches).2
        rw [← same]
        exact (ihBranches branch inBranches).2 lowered (typedBranches branch inBranches).2
          (same ▸ shown) (rendered branch inBranches).2
      have pairs : (branches.map fun branch => (evaluate c branch.1, evaluate c branch.2)) =
          ((branches.map Prod.fst).map (evaluate c)).zip
            ((branches.map Prod.snd).map (evaluate c)) := by
        rw [List.map_map, List.map_map, List.zip_map']
        rfl
      have ofOtherwise : Simulates scope type (fallback.evaluate c) otherwise :=
        sameType ▸ ihFallback ofFallback typedFallback (sameType ▸ shown) renderedFallback
      rw [evaluate, evaluateBranches_eq, pairs]
      exact simulates_choose ofOtherwise conditions results

end Expr

end MapStyle
