import MapStyle.Expr.Dependencies
import MapStyle.Expr.Eval

/-!
# Induction over expressions

Expressions are nested through three kinds of lists. `Expr.structural` is the one
induction over them: it gives the hypothesis for every member of a list. The functions
that walk the lists beside a function on trees are list operations, and the lemmas here
say which, so that no later proof has to unfold a mutual definition.
-/

namespace MapStyle

namespace Expr

variable {W N : Type}

attribute [local simp] nodes nodesOfAll nodesOfStops nodesOfBranches

/-- Induction over a tree, with a hypothesis for every operand, every output of a stop and both
parts of every branch. -/
@[elab_as_elim]
theorem structural {motive : Expr W N → Prop}
    (literal : ∀ value, motive (literal value))
    (property : ∀ name type, motive (property name type))
    (input : ∀ source type, motive (input source type))
    (operator : ∀ op args type, (∀ arg ∈ args, motive arg) → motive (operator op args type))
    (interpolate : ∀ curve x stops type, motive x → (∀ stop ∈ stops, motive stop.2) →
      motive (interpolate curve x stops type))
    (case : ∀ branches fallback type,
      (∀ branch ∈ branches, motive branch.1 ∧ motive branch.2) → motive fallback →
      motive (case branches fallback type))
    (external : ∀ id type, motive (external id type))
    (e : Expr W N) : motive e := by
  refine @Expr.rec W N motive (fun args => ∀ arg ∈ args, motive arg)
    (fun stops => ∀ stop ∈ stops, motive stop.2)
    (fun branches => ∀ branch ∈ branches, motive branch.1 ∧ motive branch.2)
    (fun stop => motive stop.2) (fun branch => motive branch.1 ∧ motive branch.2)
    literal property input operator
    (fun curve x stops type ofInput ofStops => interpolate curve x stops type ofInput ofStops)
    case external ?_ ?_ ?_ ?_ ?_ ?_ (fun _ _ ofOutput => ofOutput)
    (fun _ _ ofCondition ofResult => ⟨ofCondition, ofResult⟩) e
  · simp
  · exact fun arg rest ofArg ofRest => List.forall_mem_cons.2 ⟨ofArg, ofRest⟩
  · simp
  · exact fun stop rest ofStop ofRest => List.forall_mem_cons.2 ⟨ofStop, ofRest⟩
  · simp
  · exact fun branch rest ofBranch ofRest => List.forall_mem_cons.2 ⟨ofBranch, ofRest⟩

/-! ## Nodes -/

theorem nodesOfAll_eq (args : List (Expr W N)) : nodesOfAll args = args.flatMap nodes := by
  induction args with
  | nil => rfl
  | cons arg rest ih => simp [nodesOfAll, ih]

theorem nodesOfStops_eq (stops : List (W × Expr W N)) :
    nodesOfStops stops = stops.flatMap fun stop => nodes stop.2 := by
  induction stops with
  | nil => rfl
  | cons stop rest ih => simp [nodesOfStops, ih]

theorem nodesOfBranches_eq (branches : List (Expr W N × Expr W N)) :
    nodesOfBranches branches = branches.flatMap fun branch =>
      nodes branch.1 ++ nodes branch.2 := by
  induction branches with
  | nil => rfl
  | cons branch rest ih => simp [nodesOfBranches, ih]

/-- A tree is the first of its nodes. -/
theorem mem_nodes_self (e : Expr W N) : e ∈ e.nodes := by
  cases e <;> simp [nodes]

/-- What all nodes of a tree have in common, node by node from the root down. -/
theorem forall_nodes_operator {holds : Expr W N → Prop} {op : Operator} {args : List (Expr W N)}
    {type : ValueType} :
    (∀ node ∈ (operator op args type).nodes, holds node) ↔
      holds (operator op args type) ∧ ∀ arg ∈ args, ∀ node ∈ arg.nodes, holds node := by
  simp only [nodes, nodesOfAll_eq, List.forall_mem_cons, List.mem_flatMap]
  constructor
  · rintro ⟨root, below⟩
    exact ⟨root, fun arg member node inArg => below node ⟨arg, member, inArg⟩⟩
  · rintro ⟨root, below⟩
    refine ⟨root, ?_⟩
    rintro node ⟨arg, member, inArg⟩
    exact below arg member node inArg

theorem forall_nodes_interpolate {holds : Expr W N → Prop} {curve : Curve W} {x : Expr W N}
    {stops : List (W × Expr W N)} {type : ValueType} :
    (∀ node ∈ (interpolate curve x stops type).nodes, holds node) ↔
      holds (interpolate curve x stops type) ∧ (∀ node ∈ x.nodes, holds node) ∧
        ∀ stop ∈ stops, ∀ node ∈ stop.2.nodes, holds node := by
  simp only [nodes, nodesOfStops_eq, List.cons_append, List.forall_mem_cons, List.forall_mem_append,
    List.mem_flatMap]
  constructor
  · rintro ⟨root, ofInput, below⟩
    exact ⟨root, ofInput, fun stop member node inStop => below node ⟨stop, member, inStop⟩⟩
  · rintro ⟨root, ofInput, below⟩
    refine ⟨root, ofInput, ?_⟩
    rintro node ⟨stop, member, inStop⟩
    exact below stop member node inStop

theorem forall_nodes_case {holds : Expr W N → Prop} {branches : List (Expr W N × Expr W N)}
    {fallback : Expr W N} {type : ValueType} :
    (∀ node ∈ (case branches fallback type).nodes, holds node) ↔
      holds (case branches fallback type) ∧
        (∀ branch ∈ branches, (∀ node ∈ branch.1.nodes, holds node) ∧
          ∀ node ∈ branch.2.nodes, holds node) ∧
        ∀ node ∈ fallback.nodes, holds node := by
  rw [nodes, nodesOfBranches_eq, List.cons_append, List.forall_mem_cons, List.forall_mem_append]
  simp only [List.mem_flatMap, List.mem_append]
  constructor
  · rintro ⟨root, below, ofFallback⟩
    refine ⟨root, fun branch member => ⟨?_, ?_⟩, ofFallback⟩
    · exact fun node inCondition => below node ⟨branch, member, .inl inCondition⟩
    · exact fun node inResult => below node ⟨branch, member, .inr inResult⟩
  · rintro ⟨root, below, ofFallback⟩
    refine ⟨root, ?_, ofFallback⟩
    rintro node ⟨branch, member, inCondition | inResult⟩
    · exact (below branch member).1 node inCondition
    · exact (below branch member).2 node inResult

/-- The nodes below a node are nodes of the tree. -/
theorem mem_nodes_trans {node below e : Expr W N} (member : node ∈ e.nodes)
    (lower : below ∈ node.nodes) : below ∈ e.nodes := by
  revert member
  induction e using structural with
  | literal | property | input | external =>
    intro member
    simp only [nodes, List.mem_singleton] at member
    rwa [← member]
  | operator op args type ih =>
    simp only [nodes, nodesOfAll_eq, List.mem_cons, List.mem_flatMap]
    rintro (rfl | ⟨arg, inArgs, member⟩)
    · simpa [nodes, nodesOfAll_eq] using lower
    · exact .inr ⟨arg, inArgs, ih arg inArgs member⟩
  | interpolate curve x stops type ihInput ihStops =>
    simp only [nodes, nodesOfStops_eq, List.cons_append, List.mem_cons, List.mem_append,
      List.mem_flatMap]
    rintro (rfl | member | ⟨stop, inStops, member⟩)
    · simpa [nodes, nodesOfStops_eq] using lower
    · exact .inr (.inl (ihInput member))
    · exact .inr (.inr ⟨stop, inStops, ihStops stop inStops member⟩)
  | case branches fallback type ihBranches ihFallback =>
    simp only [nodes, nodesOfBranches_eq, List.cons_append, List.mem_cons, List.mem_append,
      List.mem_flatMap]
    rintro (rfl | ⟨branch, inBranches, member | member⟩ | member)
    · simpa [nodes, nodesOfBranches_eq] using lower
    · exact .inr (.inl ⟨branch, inBranches, .inl ((ihBranches branch inBranches).1 member)⟩)
    · exact .inr (.inl ⟨branch, inBranches, .inr ((ihBranches branch inBranches).2 member)⟩)
    · exact .inr (.inr (ihFallback member))

/-- The literals of a tree. -/
def literals (e : Expr W N) : List (Value W N) := e.nodes.filterMap literal?

/-! ## Reads -/

/-- Whether a node reads the feature, the frame or the host. -/
def isRead (e : Expr W N) : Bool := e.propertyRead?.isSome || e.isInput || e.isExternal

/-! ## Evaluation -/

variable [Scalar W] [Scalar N] [Precision W N]

attribute [local simp] evaluate evaluateAll evaluateStops evaluateBranches

@[simp] theorem evaluateAll_eq (c : Context W N) (args : List (Expr W N)) :
    evaluateAll c args = args.map (evaluate c) := by
  induction args with
  | nil => rfl
  | cons arg rest ih => simp [evaluateAll, ih]

@[simp] theorem evaluateStops_eq (c : Context W N) (stops : List (W × Expr W N)) :
    evaluateStops c stops = stops.map fun stop => (stop.1, evaluate c stop.2) := by
  induction stops with
  | nil => rfl
  | cons stop rest ih => simp [evaluateStops, ih]

@[simp] theorem evaluateBranches_eq (c : Context W N) (branches : List (Expr W N × Expr W N)) :
    evaluateBranches c branches = branches.map fun branch =>
      (evaluate c branch.1, evaluate c branch.2) := by
  induction branches with
  | nil => rfl
  | cons branch rest ih => simp [evaluateBranches, ih]

end Expr

end MapStyle
