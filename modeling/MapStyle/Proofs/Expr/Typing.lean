import MapStyle.Expr.Parse
import MapStyle.Proofs.Expr.Induction

/-!
# Well-typed expressions and what they evaluate to

`Expr.Respects` is the rule that each kind of node keeps: the signature of an operator,
one type for all results of a `case`, ascending stops of an interpolation. Here a tree of
such nodes is shown to evaluate to a value of its type, unless a feature property or a
host callback gave something else. Nothing is said about how such a tree comes about.
-/

namespace MapStyle

variable {W N : Type}

/-! ## The rules of typing -/

theorem Arity.admits_iff {arity : Arity} {count : Nat} :
    arity.admits count = true ↔
      arity.least ≤ count ∧ ∀ most, arity.most = some most → count ≤ most := by
  obtain ⟨least, most⟩ := arity
  rw [Arity.admits, Bool.and_eq_true, decide_eq_true_eq]
  cases most <;> simp

theorem Arity.least_le_of_admits {arity : Arity} {count : Nat}
    (admitted : arity.admits count = true) : arity.least ≤ count :=
  (Arity.admits_iff.1 admitted).1

/-- The operands an operator takes: the types of its signature, and for an equality one type
that is not a list of numbers. -/
def Operator.Accepts (op : Operator) (types : List ValueType) : Prop :=
  op.signature.arity.admits types.length = true ∧
    if op = .equal ∨ op = .notEqual then
      ∃ common, common ≠ .numberArray ∧ ∀ type ∈ types, type = common
    else ∀ type ∈ types, type = op.signature.argument

/-- The type of a frame input; a variable has that of its default. -/
def FrameInput.type? (env : Environment W N) : FrameInput → Option ValueType
  | styleVariable name => (env.bindings.get? name).map Value.type
  | _ => some .number

namespace Expr

variable [Scalar W]

/-- The rule a node keeps with respect to the nodes right below it and the declarations. -/
def Respects (env : Environment W N) : Expr W N → Prop
  | literal _ => True
  | property name type => ∀ schema, env.schema = some schema →
      ∃ declaration, schema.get? name = some declaration ∧
        (declaration.type = type ∨ declaration.type = .string ∧ type = .color)
  | input source type => source.type? env = some type
  | operator op args type => type = op.signature.result ∧ op.Accepts (args.map Expr.type)
  | interpolate _ x stops type => x.type = .number ∧ stops ≠ [] ∧
      (type = .number ∨ type = .color) ∧ (∀ stop ∈ stops, stop.2.type = type) ∧
      stops.Pairwise fun lower upper => Scalar.lt lower.1 upper.1 = true
  | case branches fallback type => fallback.type = type ∧
      ∀ branch ∈ branches, branch.1.type = .boolean ∧ branch.2.type = type
  | external id type => ∃ entry, env.externals.get? id = some entry ∧ entry.type = type

/-- Every node keeps its rule. -/
def WellTyped (env : Environment W N) (e : Expr W N) : Prop :=
  ∀ node ∈ e.nodes, node.Respects env

variable {env : Environment W N}

theorem WellTyped.respects {e : Expr W N} (typed : e.WellTyped env) : e.Respects env :=
  typed e e.mem_nodes_self

theorem WellTyped.node {node e : Expr W N} (typed : e.WellTyped env)
    (member : node ∈ e.nodes) : node.WellTyped env :=
  fun _ lower => typed _ (mem_nodes_trans member lower)

@[simp] theorem wellTyped_literal (value : Value W N) : (literal value).WellTyped env := by
  simp [WellTyped, nodes, Respects]

@[simp] theorem wellTyped_property_iff {name : String} {type : ValueType} :
    (property name type : Expr W N).WellTyped env ↔ (property name type).Respects env := by
  simp [WellTyped, nodes]

@[simp] theorem wellTyped_input_iff {source : FrameInput} {type : ValueType} :
    (input source type : Expr W N).WellTyped env ↔ (input source type).Respects env := by
  simp [WellTyped, nodes]

@[simp] theorem wellTyped_external_iff {id : Nat} {type : ValueType} :
    (external id type : Expr W N).WellTyped env ↔ (external id type).Respects env := by
  simp [WellTyped, nodes]

theorem wellTyped_operator_iff {op : Operator} {args : List (Expr W N)} {type : ValueType} :
    (operator op args type).WellTyped env ↔
      (operator op args type).Respects env ∧ ∀ arg ∈ args, arg.WellTyped env :=
  forall_nodes_operator

theorem wellTyped_interpolate_iff {curve : Curve W} {x : Expr W N}
    {stops : List (W × Expr W N)} {type : ValueType} :
    (interpolate curve x stops type).WellTyped env ↔
      (interpolate curve x stops type).Respects env ∧ x.WellTyped env ∧
        ∀ stop ∈ stops, stop.2.WellTyped env :=
  forall_nodes_interpolate

theorem wellTyped_case_iff {branches : List (Expr W N × Expr W N)} {fallback : Expr W N}
    {type : ValueType} :
    (case branches fallback type).WellTyped env ↔
      (case branches fallback type).Respects env ∧
        (∀ branch ∈ branches, branch.1.WellTyped env ∧ branch.2.WellTyped env) ∧
        fallback.WellTyped env :=
  forall_nodes_case

end Expr

/-! ## Results -/

/-- The errors that blame what a feature or a host callback gave. -/
def EvalError.Foreign : EvalError → Prop
  | propertyType .. | externalType .. => True
  | _ => False

/-! From here on `blame` is the errors that the reads of a tree may end in; no other part of a
well-typed tree adds one. -/

variable {blame : EvalError → Prop}

namespace Outcome

/-- A result as promised, or an error that is to blame on what was read. -/
def Safe {α : Type} (blame : EvalError → Prop) (promise : α → Prop) : Outcome α → Prop
  | .ok value => promise value
  | .error e => blame e

/-- A value of a type, or an error that is to blame on what was read. -/
abbrev HasType (blame : EvalError → Prop) (type : ValueType) : Outcome (Value W N) → Prop :=
  Safe blame fun value => value.type = type

theorem Safe.bind {α β : Type} {promise : α → Prop} {other : β → Prop} {r : Outcome α}
    {f : α → Outcome β} (safe : Safe blame promise r)
    (next : ∀ a, promise a → Safe blame other (f a)) :
    Safe blame other (r >>= f) := by
  cases r with
  | ok value => exact next value safe
  | error e => exact safe

theorem Safe.weaken {α : Type} {promise other : α → Prop} {r : Outcome α}
    (safe : Safe blame promise r) (implies : ∀ a, promise a → other a) : Safe blame other r := by
  cases r with
  | ok value => exact implies value safe
  | error e => exact safe

theorem safe_number {r : Outcome (Value W N)} (typed : HasType blame .number r) (name : String) :
    Safe blame (fun _ => True) (r.number name) := by
  cases r with
  | error e => exact typed
  | ok value =>
    cases value with
    | number n => trivial
    | _ => cases typed

theorem safe_boolean {r : Outcome (Value W N)} (typed : HasType blame .boolean r) (name : String) :
    Safe blame (fun _ => True) (r.boolean name) := by
  cases r with
  | error e => exact typed
  | ok value =>
    cases value with
    | boolean b => trivial
    | _ => cases typed

end Outcome

namespace Value

variable [Scalar W] [Scalar N]

@[simp] theorem type_zeroOf (type : ValueType) : (zeroOf type : Value W N).type = type := by
  cases type <;> rfl

/-- A coerced value has the type that was asked for. -/
theorem type_coerce? [Precision W N] {value result : Value W N} {type : ValueType}
    (coerced : value.coerce? type = some result) : result.type = type := by
  unfold coerce? at coerced
  split at coerced
  · cases coerced
    rfl
  · cases coerced
    rfl
  · obtain ⟨c, -, rfl⟩ := Option.map_eq_some_iff.1 coerced
    rfl
  · obtain ⟨c, -, rfl⟩ := Option.map_eq_some_iff.1 coerced
    rfl
  · split at coerced
    · cases coerced
      assumption
    · cases coerced

end Value

/-! ## Operators -/

namespace Operator

open Outcome

variable {operands : List (Outcome (Value W N))}

theorem operandAt_eq (op : Operator) {index : Nat} (inside : index < operands.length) :
    op.operandAt operands index = operands[index] := by
  simp [operandAt, inside]

theorem safe_operandAt (op : Operator) (index : Nat) {promise : Value W N → Prop}
    (safe : ∀ operand ∈ operands, Safe blame promise operand) (inside : index < operands.length) :
    Safe blame promise (op.operandAt operands index) := by
  rw [operandAt_eq op inside]
  exact safe _ (List.getElem_mem inside)

theorem safe_unary {op : Operator} (f : W → W)
    (typed : ∀ operand ∈ operands, HasType blame .number operand) (enough : 0 < operands.length) :
    HasType blame .number (op.unary f operands) :=
  (safe_number (safe_operandAt op 0 typed enough) _).bind fun _ _ => rfl

theorem safe_binary {op : Operator} (f : W → W → W)
    (typed : ∀ operand ∈ operands, HasType blame .number operand) (enough : 1 < operands.length) :
    HasType blame .number (op.binary f operands) := by
  have first := safe_operandAt op 0 typed (by omega)
  have second := safe_operandAt op 1 typed enough
  exact (safe_number first _).bind fun _ _ => (safe_number second _).bind fun _ _ => rfl

theorem safe_comparison {op : Operator} (test : W → W → Bool)
    (typed : ∀ operand ∈ operands, HasType blame .number operand) (enough : 1 < operands.length) :
    HasType blame .boolean (op.comparison test operands) := by
  have first := safe_operandAt op 0 typed (by omega)
  have second := safe_operandAt op 1 typed enough
  exact (safe_number first _).bind fun _ _ => (safe_number second _).bind fun _ _ => rfl

theorem safe_accumulate {op : Operator} (f : W → W → W) (total : W)
    (typed : ∀ operand ∈ operands, HasType blame .number operand) :
    HasType blame .number (op.accumulate f total operands) := by
  induction operands generalizing total with
  | nil => rfl
  | cons operand rest ih =>
    obtain ⟨first, others⟩ := List.forall_mem_cons.1 typed
    exact (safe_number first _).bind fun x _ => ih (f total x) others

theorem safe_search {op : Operator} (sought : Bool)
    (typed : ∀ operand ∈ operands, HasType blame .boolean operand) :
    HasType blame .boolean (op.search sought operands) := by
  induction operands with
  | nil => rfl
  | cons operand rest ih =>
    obtain ⟨first, others⟩ := List.forall_mem_cons.1 typed
    refine (safe_boolean first _).bind fun b _ => ?_
    by_cases found : b = sought
    · simp only [found]
      rfl
    · simp only [found]
      exact ih others

theorem safe_equality [Scalar W] [Scalar N] {op : Operator} {type : ValueType}
    (typed : ∀ operand ∈ operands, HasType blame type operand) (enough : 1 < operands.length) :
    Safe blame (fun _ => True) (op.equality operands) := by
  have first := safe_operandAt op 0 typed (by omega)
  have second := safe_operandAt op 1 typed enough
  exact first.bind fun _ _ => second.bind fun _ _ => trivial

variable [Scalar W] [Scalar N] [Precision W N]

theorem safe_clamp (typed : ∀ operand ∈ operands, HasType blame .number operand)
    (enough : 2 < operands.length) : HasType blame .number (clamp.apply operands) := by
  have number (index : Nat) (inside : index < operands.length) :
      Safe blame (fun _ => True) ((clamp.operandAt operands index).number clamp.name) :=
    safe_number (safe_operandAt _ index typed inside) _
  refine (number 0 (by omega)).bind fun _ _ => ?_
  exact (number 1 (by omega)).bind fun _ _ => (number 2 enough).bind fun _ _ => rfl

theorem safe_color (typed : ∀ operand ∈ operands, HasType blame .number operand)
    (enough : 2 < operands.length) : HasType blame .color (color.apply operands) := by
  have number (index : Nat) (inside : index < operands.length) :
      Safe blame (fun _ => True) ((color.operandAt operands index).number color.name) :=
    safe_number (safe_operandAt _ index typed inside) _
  have withAlpha (alpha : W) : HasType blame .color (do
      let red ← (color.operandAt operands 0).number color.name
      let green ← (color.operandAt operands 1).number color.name
      let blue ← (color.operandAt operands 2).number color.name
      return Value.color (W := W) (Color.ofChannels red green blue alpha)) := by
    refine (number 0 (by omega)).bind fun _ _ => ?_
    exact (number 1 (by omega)).bind fun _ _ => (number 2 enough).bind fun _ _ => rfl
  simp only [apply]
  split
  · exact (number 3 (by omega)).bind fun alpha _ => withAlpha alpha
  · exact withAlpha Scalar.one

/-- An equality of two operands of one type is a truth value. -/
theorem safe_applyEquality {op : Operator} (equality : op = .equal ∨ op = .notEqual)
    {type : ValueType} (typed : ∀ operand ∈ operands, HasType blame type operand)
    (enough : 1 < operands.length) : HasType blame .boolean (op.apply operands) := by
  rcases equality with rfl | rfl
  · exact (safe_equality typed enough).bind fun _ _ => rfl
  · exact (safe_equality typed enough).bind fun _ _ => rfl

/-- An operator on operands of its signature gives a value of its result type. -/
theorem safe_apply {op : Operator} (different : ¬(op = .equal ∨ op = .notEqual))
    (admitted : op.signature.arity.admits operands.length = true)
    (typed : ∀ operand ∈ operands, HasType blame op.signature.argument operand) :
    HasType blame op.signature.result (op.apply operands) := by
  have count := Arity.least_le_of_admits admitted
  cases op <;> simp only [signature, Arity.exactly, Arity.atLeast] at count typed ⊢
  case add => exact safe_accumulate _ _ typed
  case multiply => exact safe_accumulate _ _ typed
  case abs | floor | ceil | round | sqrt | sin | cos => exact safe_unary _ typed (by omega)
  case subtract | divide | remainder | power => exact safe_binary _ typed (by omega)
  case greater | greaterEqual | less | lessEqual => exact safe_comparison _ typed (by omega)
  case atan =>
    simp only [apply]
    split
    · exact safe_binary _ typed (by omega)
    · exact safe_unary _ typed (by omega)
  case clamp => exact safe_clamp typed (by omega)
  case equal | notEqual => simp at different
  case not =>
    have first := safe_operandAt .not 0 typed (by omega)
    exact (safe_boolean first _).bind fun _ _ => rfl
  case all => exact safe_search _ typed
  case any => exact safe_search _ typed
  case color => exact safe_color typed (by omega)

end Operator

variable [Scalar W]

/-! ## Curves -/

namespace Curve

open Outcome

variable {α : Type} {holds : W × α → Prop}

/-- What holds of all stops holds of both ends of the segment that is found among them. -/
theorem lastSegment_forall (x : W) (segment : (W × α) × (W × α)) {stops : List (W × α)}
    (start : holds segment.1 ∧ holds segment.2) (ofStops : ∀ stop ∈ stops, holds stop) :
    holds (lastSegment x segment stops).1 ∧ holds (lastSegment x segment stops).2 := by
  fun_induction lastSegment x segment stops with
  | case1 segment low high rest ih =>
    obtain ⟨ofLow, ofRest⟩ := List.forall_mem_cons.1 ofStops
    refine ih ?_ ofRest
    split
    · exact ⟨ofLow, (List.forall_mem_cons.1 ofRest).1⟩
    · exact start
  | case2 segment stops => exact start

variable [Scalar N] [Precision W N]

theorem safe_blend {t : W} {type : ValueType} (blendable : type = .number ∨ type = .color)
    {a b : Value W N} (first : a.type = type) (second : b.type = type) :
    HasType blame type (blend t a b) := by
  rcases blendable with rfl | rfl
  · cases a <;> cases first
    cases b <;> cases second
    rfl
  · cases a <;> cases first
    cases b <;> cases second
    rfl

/-- A curve through at least one output of a type that can be blended has a value of that type. -/
theorem safe_sample {curve : Curve W} {x : W} {stops : List (W × Outcome (Value W N))}
    {type : ValueType} (blendable : type = .number ∨ type = .color) (nonempty : stops ≠ [])
    (typed : ∀ stop ∈ stops, HasType blame type stop.2) :
    HasType blame type (curve.sample x stops) := by
  match stops, nonempty with
  | [(_, output)], _ => exact typed _ List.mem_cons_self
  | first :: second :: rest, _ =>
    obtain ⟨ofFirst, ofRest⟩ := List.forall_mem_cons.1 typed
    simp only [sample]
    split
    · exact ofFirst
    · have ends := lastSegment_forall x (first, second)
        ⟨ofFirst, (List.forall_mem_cons.1 ofRest).1⟩ ofRest
      exact ends.1.bind fun a ofA => ends.2.bind fun b ofB => safe_blend blendable ofA ofB

end Curve

/-! ## Trees -/

namespace Expr

open Outcome

omit [Scalar W] in
theorem safe_choose {type : ValueType} {fallback : Outcome (Value W N)}
    {branches : List (Outcome (Value W N) × Outcome (Value W N))}
    (ofFallback : HasType blame type fallback)
    (ofBranches : ∀ branch ∈ branches, HasType blame .boolean branch.1 ∧
      HasType blame type branch.2) :
    HasType blame type (choose fallback branches) := by
  induction branches with
  | nil => exact ofFallback
  | cons branch rest ih =>
    obtain ⟨⟨ofCondition, ofResult⟩, ofRest⟩ := List.forall_mem_cons.1 ofBranches
    refine (safe_boolean ofCondition _).bind fun holds _ => ?_
    cases holds
    · exact ih ofRest
    · exact ofResult

variable [Scalar N] [Precision W N]

/-- A frame input reads as a value of the type it was declared with. -/
theorem type_read {env : Environment W N} (c : Context W N) {source : FrameInput}
    {type : ValueType} (declared : source.type? env = some type) :
    (c.read type source).type = type := by
  cases source with
  | styleVariable name =>
    simp only [Context.read]
    cases found : (c.bindings.get? name).bind (·.coerce? type) with
    | none => exact Value.type_zeroOf type
    | some value =>
      obtain ⟨given, -, coerced⟩ := Option.bind_eq_some_iff.1 found
      exact Value.type_coerce? coerced
  | _ => exact Option.some.inj declared

theorem hasType_readProperty (properties : Properties W N) (name : String) (type : ValueType) :
    HasType EvalError.Foreign type (readProperty properties name type) := by
  unfold readProperty
  split
  · exact Value.type_zeroOf type
  · split
    next coerced => exact Value.type_coerce? coerced
    next => trivial

/-- A read gives a value of its type, or blames what it has read. -/
theorem hasType_read {env : Environment W N} {c : Context W N}
    (registered : c.externals = env.externals) {e : Expr W N} (typed : e.WellTyped env)
    (read : e.isRead = true) : HasType EvalError.Foreign e.type (e.evaluate c) := by
  cases e with
  | property name type => exact hasType_readProperty _ _ _
  | input source type => exact type_read c typed.respects
  | external id type =>
    obtain ⟨entry, found, -⟩ := typed.respects
    simp only [evaluate, registered, found]
    split
    next coerced => exact Value.type_coerce? coerced
    next => trivial
  | _ => cases read

/-- A well-typed tree evaluates to a value of its type, or to an error that one of its reads may
end in. -/
theorem hasType_evaluate {env : Environment W N} {c : Context W N} (e : Expr W N)
    (typed : e.WellTyped env)
    (reads : ∀ node ∈ e.nodes, node.isRead = true → HasType blame node.type (node.evaluate c)) :
    HasType blame e.type (e.evaluate c) := by
  induction e using structural with
  | literal value => rfl
  | property | input | external => exact reads _ (mem_nodes_self _) rfl
  | operator op args type ih =>
    obtain ⟨⟨rfl, accepted, types⟩, ofArgs⟩ := wellTyped_operator_iff.1 typed
    obtain ⟨-, readsOfArgs⟩ := forall_nodes_operator.1 reads
    rw [List.length_map] at accepted
    have operands {expected : ValueType} (same : ∀ type ∈ args.map Expr.type, type = expected) :
        ∀ operand ∈ args.map (evaluate c), HasType blame expected operand := by
      simp only [List.forall_mem_map] at same ⊢
      intro arg member
      rw [← same arg member]
      exact ih arg member (ofArgs arg member) (readsOfArgs arg member)
    rw [evaluate, evaluateAll_eq]
    split at types
    next equality =>
      obtain ⟨common, -, same⟩ := types
      rcases equality with rfl | rfl
      · have enough : 1 < args.length := Arity.least_le_of_admits accepted
        exact Operator.safe_applyEquality (.inl rfl) (operands same) (by simpa using enough)
      · have enough : 1 < args.length := Arity.least_le_of_admits accepted
        exact Operator.safe_applyEquality (.inr rfl) (operands same) (by simpa using enough)
    next different =>
      exact Operator.safe_apply different (by rwa [List.length_map]) (operands types)
  | interpolate curve x stops type ihInput ihStops =>
    obtain ⟨⟨ofNumber, nonempty, blendable, outputs, -⟩, ofInput, ofStops⟩ :=
      wellTyped_interpolate_iff.1 typed
    obtain ⟨-, readsOfInput, readsOfStops⟩ := forall_nodes_interpolate.1 reads
    rw [evaluate, evaluateStops_eq]
    refine (safe_number (ofNumber ▸ ihInput ofInput readsOfInput) _).bind fun n _ => ?_
    refine Curve.safe_sample blendable (by simpa using nonempty) ?_
    rw [List.forall_mem_map]
    intro stop member
    rw [← outputs stop member]
    exact ihStops stop member (ofStops stop member) (readsOfStops stop member)
  | case branches fallback type ihBranches ihFallback =>
    obtain ⟨⟨ofType, types⟩, ofBranches, ofFallback⟩ := wellTyped_case_iff.1 typed
    obtain ⟨-, readsOfBranches, readsOfFallback⟩ := forall_nodes_case.1 reads
    rw [evaluate, evaluateBranches_eq]
    refine safe_choose (ofType ▸ ihFallback ofFallback readsOfFallback) ?_
    rw [List.forall_mem_map]
    intro branch member
    obtain ⟨ihCondition, ihResult⟩ := ihBranches branch member
    obtain ⟨ofCondition, ofResult⟩ := ofBranches branch member
    obtain ⟨condition, result⟩ := types branch member
    obtain ⟨readsOfCondition, readsOfResult⟩ := readsOfBranches branch member
    exact ⟨condition ▸ ihCondition ofCondition readsOfCondition,
      result ▸ ihResult ofResult readsOfResult⟩

/-- Under the callbacks it was parsed with, a well-typed tree evaluates to a value of its type, or
to an error that blames a feature property or a host callback. -/
theorem hasType_evaluate_foreign {env : Environment W N} {c : Context W N}
    (registered : c.externals = env.externals) (e : Expr W N) (typed : e.WellTyped env) :
    HasType EvalError.Foreign e.type (e.evaluate c) :=
  hasType_evaluate e typed fun _ member read =>
    hasType_read registered (typed.node member) read

end Expr

end MapStyle
