import MapStyle.Expr.Dependencies
import MapStyle.Proofs.Expr.Typing

/-!
# What a value depends on

The value of a tree is settled by what its reads come to. A tree that reads nothing of the
feature has one value for all features of a frame, a tree that reads nothing at all has one
value everywhere, and a well-typed tree whose reads all end well has a value of its type.
-/

namespace MapStyle.Expr

variable {W N : Type} [Scalar W] [Scalar N] [Precision W N]

/-- Contexts in which every read comes to the same cannot be told apart by a tree. -/
theorem evaluate_congr {c d : Context W N} (e : Expr W N)
    (alike : ∀ node ∈ e.nodes, node.isRead = true → node.evaluate c = node.evaluate d) :
    e.evaluate c = e.evaluate d := by
  induction e using structural with
  | literal value => rfl
  | property | input | external => exact alike _ (mem_nodes_self _) rfl
  | operator op args type ih =>
    obtain ⟨-, ofArgs⟩ := forall_nodes_operator.1 alike
    have operands : args.map (evaluate c) = args.map (evaluate d) :=
      List.map_congr_left fun arg member => ih arg member (ofArgs arg member)
    rw [evaluate, evaluate, evaluateAll_eq, evaluateAll_eq, operands]
  | interpolate curve x stops type ihInput ihStops =>
    obtain ⟨-, ofInput, ofStops⟩ := forall_nodes_interpolate.1 alike
    have outputs : (stops.map fun stop => (stop.1, evaluate c stop.2)) =
        stops.map fun stop => (stop.1, evaluate d stop.2) := by
      refine List.map_congr_left fun stop member => ?_
      rw [ihStops stop member (ofStops stop member)]
    rw [evaluate, evaluate, evaluateStops_eq, evaluateStops_eq, ihInput ofInput, outputs]
  | case branches fallback type ihBranches ihFallback =>
    obtain ⟨-, ofBranches, ofFallback⟩ := forall_nodes_case.1 alike
    have parts : (branches.map fun branch => (evaluate c branch.1, evaluate c branch.2)) =
        branches.map fun branch => (evaluate d branch.1, evaluate d branch.2) := by
      refine List.map_congr_left fun branch member => ?_
      obtain ⟨ofCondition, ofResult⟩ := ofBranches branch member
      rw [(ihBranches branch member).1 ofCondition, (ihBranches branch member).2 ofResult]
    rw [evaluate, evaluate, evaluateBranches_eq, evaluateBranches_eq, ihFallback ofFallback, parts]

/-! ## Trees that read little -/

omit [Scalar W] [Scalar N] [Precision W N] in
/-- A tree that does not depend on the feature reads the frame at most. -/
theorem isInput_of_isRead {e : Expr W N} (shared : e.isFeatureDependent = false) {node : Expr W N}
    (member : node ∈ e.nodes) (read : node.isRead = true) : node.isInput = true := by
  rw [isFeatureDependent, List.any_eq_false] at shared
  have outside := shared node member
  rw [isRead, Bool.or_eq_true, Bool.or_eq_true] at read
  rw [Bool.or_eq_true] at outside
  rcases read with (ofProperty | ofFrame) | ofHost
  · exact absurd (.inl ofProperty) outside
  · exact ofFrame
  · exact absurd (.inr ofHost) outside

omit [Scalar W] [Scalar N] [Precision W N] in
theorem isRead_eq_false {e : Expr W N} (shared : e.isFeatureDependent = false)
    (still : e.isFrameDependent = false) {node : Expr W N} (member : node ∈ e.nodes) :
    node.isRead = false := by
  refine Bool.eq_false_iff.2 fun read => ?_
  rw [isFrameDependent, List.any_eq_false] at still
  exact still node member (isInput_of_isRead shared member read)

/-- What depends on nothing has one value everywhere. -/
theorem evaluate_constant {e : Expr W N} (shared : e.isFeatureDependent = false)
    (still : e.isFrameDependent = false) (c d : Context W N) : e.evaluate c = e.evaluate d := by
  refine evaluate_congr e fun node member read => ?_
  rw [isRead_eq_false shared still member] at read
  cases read

/-- What does not depend on the feature has one value for all features of a frame. -/
theorem evaluate_shared {e : Expr W N} (shared : e.isFeatureDependent = false) (c : Context W N)
    (properties : Properties W N) : e.evaluate c = e.evaluate { c with properties } := by
  refine evaluate_congr e fun node member read => ?_
  have ofFrame := isInput_of_isRead shared member read
  cases node with
  | input source type =>
    rw [evaluate, evaluate]
    cases source <;> rfl
  | _ => cases ofFrame

/-! ## Trees whose reads end well -/

/-- When every read gives a value of its type, so does the tree. -/
theorem exists_evaluate {env : Environment W N} {c : Context W N} {e : Expr W N}
    (typed : e.WellTyped env)
    (reads : ∀ node ∈ e.nodes, node.isRead = true →
      ∃ value, node.evaluate c = .ok value ∧ value.type = node.type) :
    ∃ value, e.evaluate c = .ok value ∧ value.type = e.type := by
  have safe : Outcome.HasType (fun _ => False) e.type (e.evaluate c) := by
    refine hasType_evaluate e typed fun node member read => ?_
    obtain ⟨value, given, ofType⟩ := reads node member read
    rw [given]
    exact ofType
  cases outcome : e.evaluate c with
  | ok value =>
    rw [outcome] at safe
    exact ⟨value, rfl, safe⟩
  | error e =>
    rw [outcome] at safe
    exact safe.elim

/-- A well-typed tree that does not depend on the feature has a value. -/
theorem exists_evaluate_shared {env : Environment W N} {e : Expr W N} (typed : e.WellTyped env)
    (shared : e.isFeatureDependent = false) (c : Context W N) :
    ∃ value, e.evaluate c = .ok value ∧ value.type = e.type := by
  refine exists_evaluate typed fun node member read => ?_
  have ofFrame := isInput_of_isRead shared member read
  cases node with
  | input source type => exact ⟨_, rfl, type_read c (typed.node member).respects⟩
  | _ => cases ofFrame

end MapStyle.Expr
