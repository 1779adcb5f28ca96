import Mathlib
import MapStyle.Proofs.Expr.Typing
import MapStyle.Proofs.Shader.Image

/-!
# Operators in the shader

A shader expression simulates an outcome when the outcome is a value of a known type and the
expression evaluates to its image. Every operator keeps this: the shader expression that is
made of the operands of an operator simulates what the operator makes of their values. Two
strings are compared by their numbers, so for them it has to be said that the numbers tell
them apart.
-/

namespace MapStyle

variable {K : Type} [Field K] [LinearOrder K] [FloorRing K] [Elementary K]

/-- An expression evaluates, in a scope, to the image of a value of a type. -/
def Simulates (scope : ShaderScope K) (type : ValueType) (r : Outcome (Value K K))
    (s : ShaderExpr K) : Prop :=
  ∃ value, r = .ok value ∧ value.type = type ∧ value.image? = some (s.eval scope)

variable {scope : ShaderScope K} {r q : Outcome (Value K K)} {s u v : ShaderExpr K}

namespace Simulates

theorem number_iff :
    Simulates scope .number r s ↔ ∃ n, r = .ok (.number n) ∧ s.eval scope = .float n := by
  constructor
  · rintro ⟨value, rfl, ofType, image⟩
    cases value <;> cases ofType
    exact ⟨_, rfl, (Option.some.inj image).symm⟩
  · rintro ⟨n, rfl, evaluated⟩
    exact ⟨_, rfl, rfl, congrArg some evaluated.symm⟩

theorem boolean_iff :
    Simulates scope .boolean r s ↔ ∃ b, r = .ok (.boolean b) ∧ s.eval scope = .bool b := by
  constructor
  · rintro ⟨value, rfl, ofType, image⟩
    cases value <;> cases ofType
    exact ⟨_, rfl, (Option.some.inj image).symm⟩
  · rintro ⟨b, rfl, evaluated⟩
    exact ⟨_, rfl, rfl, congrArg some evaluated.symm⟩

theorem color_iff :
    Simulates scope .color r s ↔
      ∃ c, r = .ok (.color c) ∧ s.eval scope = .vec4 (Vec4.ofColor c) := by
  constructor
  · rintro ⟨value, rfl, ofType, image⟩
    cases value <;> cases ofType
    exact ⟨_, rfl, (Option.some.inj image).symm⟩
  · rintro ⟨c, rfl, evaluated⟩
    exact ⟨_, rfl, rfl, congrArg some evaluated.symm⟩

theorem string_iff :
    Simulates scope .string r s ↔
      ∃ text, r = .ok (.string text) ∧ s.eval scope = .float (stringId text : K) := by
  constructor
  · rintro ⟨value, rfl, ofType, image⟩
    cases value <;> cases ofType
    exact ⟨_, rfl, (Option.some.inj image).symm⟩
  · rintro ⟨text, rfl, evaluated⟩
    exact ⟨_, rfl, rfl, congrArg some evaluated.symm⟩

/-- Nothing simulates a list of numbers. -/
theorem ne_numberArray {type : ValueType} (simulated : Simulates scope type r s) :
    type ≠ .numberArray := by
  rintro rfl
  obtain ⟨value, -, ofType, image⟩ := simulated
  cases value <;> cases ofType
  cases image

end Simulates

/-! ## Families of operators -/

namespace Operator

variable {op : Operator} {operands : List (Outcome (Value K K))} {lowered : List (ShaderExpr K)}

theorem simulates_operandAt {type : ValueType} (op : Operator)
    (ofOperands : List.Forall₂ (Simulates scope type) operands lowered) {index : Nat}
    (inside : index < operands.length) (otherwise : ShaderExpr K) :
    Simulates scope type (op.operandAt operands index) (lowered.getD index otherwise) := by
  have insideLowered : index < lowered.length := ofOperands.length_eq ▸ inside
  rw [operandAt_eq op inside, List.getD_eq_getElem?_getD, List.getElem?_eq_getElem insideLowered,
    Option.getD_some]
  exact ofOperands.get inside insideLowered

theorem simulates_unary {f : K → K}
    (first : Simulates scope .number (op.operandAt operands 0) s)
    (meaning : ∀ x, s.eval scope = .float x → v.eval scope = .float (f x)) :
    Simulates scope .number (op.unary f operands) v := by
  obtain ⟨x, given, evaluated⟩ := Simulates.number_iff.1 first
  refine Simulates.number_iff.2 ⟨f x, ?_, meaning x evaluated⟩
  rw [unary, given]
  rfl

theorem simulates_binary {f : K → K → K}
    (first : Simulates scope .number (op.operandAt operands 0) s)
    (second : Simulates scope .number (op.operandAt operands 1) u)
    (meaning : ∀ x y, s.eval scope = .float x → u.eval scope = .float y →
      v.eval scope = .float (f x y)) :
    Simulates scope .number (op.binary f operands) v := by
  obtain ⟨x, given, evaluated⟩ := Simulates.number_iff.1 first
  obtain ⟨y, givenSecond, evaluatedSecond⟩ := Simulates.number_iff.1 second
  refine Simulates.number_iff.2 ⟨f x y, ?_, meaning x y evaluated evaluatedSecond⟩
  rw [binary, given, givenSecond]
  rfl

theorem simulates_comparison {test : K → K → Bool}
    (first : Simulates scope .number (op.operandAt operands 0) s)
    (second : Simulates scope .number (op.operandAt operands 1) u)
    (meaning : ∀ x y, s.eval scope = .float x → u.eval scope = .float y →
      v.eval scope = .bool (test x y)) :
    Simulates scope .boolean (op.comparison test operands) v := by
  obtain ⟨x, given, evaluated⟩ := Simulates.number_iff.1 first
  obtain ⟨y, givenSecond, evaluatedSecond⟩ := Simulates.number_iff.1 second
  refine Simulates.boolean_iff.2 ⟨test x y, ?_, meaning x y evaluated evaluatedSecond⟩
  rw [comparison, given, givenSecond]
  rfl

theorem simulates_accumulate {f : K → K → K} {bop : BinaryOp}
    (meaning : ∀ x y : K, bop.apply (.float x) (.float y) = .float (f x y))
    (ofOperands : List.Forall₂ (Simulates scope .number) operands lowered) {total : K}
    (soFar : s.eval scope = .float total) :
    Simulates scope .number (op.accumulate f total operands) (lowered.foldl (.binary bop) s) := by
  induction ofOperands generalizing s total with
  | nil => exact Simulates.number_iff.2 ⟨total, rfl, soFar⟩
  | cons first rest ih =>
    obtain ⟨x, rfl, evaluated⟩ := Simulates.number_iff.1 first
    refine ih ?_
    rw [ShaderExpr.eval, soFar, evaluated, meaning]

/-- A sum or a product; the shader starts from the first operand and the interpreter from the
unit, which changes nothing. -/
theorem simulates_chain {f : K → K → K} {bop : BinaryOp} {unit : K}
    (meaning : ∀ x y : K, bop.apply (.float x) (.float y) = .float (f x y))
    (neutral : ∀ x, f unit x = x)
    (ofOperands : List.Forall₂ (Simulates scope .number) operands lowered) :
    Simulates scope .number (op.accumulate f unit operands) (.chain bop (.float unit) lowered) := by
  cases ofOperands with
  | nil => exact Simulates.number_iff.2 ⟨unit, rfl, rfl⟩
  | cons first rest =>
    obtain ⟨x, rfl, evaluated⟩ := Simulates.number_iff.1 first
    refine simulates_accumulate meaning rest ?_
    rw [neutral, evaluated]

/-- The shader combines all truth values where the interpreter stops at the one it looks for. -/
theorem simulates_fold {sought : Bool} {bop : BinaryOp}
    (found : ∀ b, bop.apply (.bool sought) (.bool b) = (.bool sought : ShaderValue K))
    (onward : ∀ b, bop.apply (.bool !sought) (.bool b) = (.bool b : ShaderValue K))
    (ofOperands : List.Forall₂ (Simulates scope .boolean) operands lowered) {total : Bool}
    (soFar : s.eval scope = .bool total) :
    Simulates scope .boolean
      (if total = sought then .ok (.boolean sought) else op.search sought operands)
      (lowered.foldl (.binary bop) s) := by
  induction ofOperands generalizing s total with
  | nil =>
    refine Simulates.boolean_iff.2 ⟨total, ?_, soFar⟩
    split
    next same => rw [same]
    next other =>
      rw [Bool.eq_not_of_ne other]
      rfl
  | cons first rest ih =>
    obtain ⟨b, rfl, evaluated⟩ := Simulates.boolean_iff.1 first
    rw [List.foldl_cons]
    by_cases same : total = sought
    · rw [if_pos same, ← if_pos (c := sought = sought) (t := Except.ok (Value.boolean sought))
        (e := op.search sought _) rfl]
      refine ih ?_
      rw [ShaderExpr.eval, soFar, evaluated, same, found]
    · rw [if_neg same]
      refine ih ?_
      rw [ShaderExpr.eval, soFar, evaluated, Bool.eq_not_of_ne same, onward]

theorem simulates_search {sought : Bool} {bop : BinaryOp}
    (found : ∀ b, bop.apply (.bool sought) (.bool b) = (.bool sought : ShaderValue K))
    (onward : ∀ b, bop.apply (.bool !sought) (.bool b) = (.bool b : ShaderValue K))
    (ofOperands : List.Forall₂ (Simulates scope .boolean) operands lowered) :
    Simulates scope .boolean (op.search sought operands) (.chain bop (.bool !sought) lowered) := by
  cases ofOperands with
  | nil => exact Simulates.boolean_iff.2 ⟨!sought, rfl, rfl⟩
  | cons first rest =>
    obtain ⟨b, rfl, evaluated⟩ := Simulates.boolean_iff.1 first
    exact simulates_fold found onward rest evaluated

/-! ## Equalities and colors -/

/-- Two values of one type are equal when their images are, if different strings have different
numbers. -/
theorem simulates_equality {type : ValueType}
    (first : Simulates scope type (op.operandAt operands 0) s)
    (second : Simulates scope type (op.operandAt operands 1) u)
    (apart : ∀ a b, op.operandAt operands 0 = .ok (.string a) →
      op.operandAt operands 1 = .ok (.string b) → stringId a = stringId b → a = b) :
    ∃ same, op.equality operands = .ok same ∧
      BinaryOp.equal.apply (s.eval scope) (u.eval scope) = .bool same ∧
      BinaryOp.notEqual.apply (s.eval scope) (u.eval scope) = .bool !same := by
  rw [equality]
  cases type with
  | numberArray => exact absurd rfl first.ne_numberArray
  | number =>
    obtain ⟨x, given, evaluated⟩ := Simulates.number_iff.1 first
    obtain ⟨y, givenSecond, evaluatedSecond⟩ := Simulates.number_iff.1 second
    rw [given, givenSecond, evaluated, evaluatedSecond]
    exact ⟨x == y, rfl, rfl, rfl⟩
  | boolean =>
    obtain ⟨x, given, evaluated⟩ := Simulates.boolean_iff.1 first
    obtain ⟨y, givenSecond, evaluatedSecond⟩ := Simulates.boolean_iff.1 second
    rw [given, givenSecond, evaluated, evaluatedSecond]
    exact ⟨x == y, rfl, rfl, rfl⟩
  | color =>
    obtain ⟨x, given, evaluated⟩ := Simulates.color_iff.1 first
    obtain ⟨y, givenSecond, evaluatedSecond⟩ := Simulates.color_iff.1 second
    rw [given, givenSecond, evaluated, evaluatedSecond]
    exact ⟨x == y, rfl, rfl, rfl⟩
  | string =>
    obtain ⟨x, given, evaluated⟩ := Simulates.string_iff.1 first
    obtain ⟨y, givenSecond, evaluatedSecond⟩ := Simulates.string_iff.1 second
    have ids : ((stringId x : K) == (stringId y : K)) = (x == y) := by
      refine Bool.eq_iff_iff.2 ?_
      rw [beq_iff_eq, beq_iff_eq, Nat.cast_inj]
      exact ⟨apart x y given givenSecond, congrArg stringId⟩
    rw [given, givenSecond, evaluated, evaluatedSecond]
    refine ⟨x == y, rfl, ?_, ?_⟩
    · exact congrArg ShaderValue.bool ids
    · exact congrArg (fun same => ShaderValue.bool !same) ids

theorem simulates_color (ofOperands : List.Forall₂ (Simulates scope .number) operands lowered)
    (enough : 3 ≤ operands.length) :
    Simulates scope .color (color.apply operands) (.ofOperator color lowered) := by
  have number (index : Nat) (inside : index < operands.length) :=
    Simulates.number_iff.1
      (simulates_operandAt color ofOperands inside (.float (Scalar.zero : K)))
  obtain ⟨red, givenRed, evaluatedRed⟩ := number 0 (by omega)
  obtain ⟨green, givenGreen, evaluatedGreen⟩ := number 1 (by omega)
  obtain ⟨blue, givenBlue, evaluatedBlue⟩ := number 2 (by omega)
  refine Simulates.color_iff.2 ?_
  by_cases translucent : operands.length = 4
  · obtain ⟨alpha, givenAlpha, evaluatedAlpha⟩ := number 3 (by omega)
    refine ⟨Color.ofChannels red green blue alpha, ?_, ?_⟩
    · simp only [apply, translucent, if_true, givenRed, givenGreen, givenBlue, givenAlpha]
      rfl
    · simp only [ShaderExpr.ofOperator, ← ofOperands.length_eq, translucent, if_true,
        ShaderExpr.eval, ShaderExpr.evalAll, evaluatedRed, evaluatedGreen, evaluatedBlue,
        evaluatedAlpha]
      rfl
  · refine ⟨Color.ofChannels red green blue Scalar.one, ?_, ?_⟩
    · simp only [apply, translucent, if_false, givenRed, givenGreen, givenBlue]
      rfl
    · simp only [ShaderExpr.ofOperator, ← ofOperands.length_eq, translucent, if_false,
        ShaderExpr.eval, ShaderExpr.evalAll, evaluatedRed, evaluatedGreen, evaluatedBlue]
      rfl

/-! ## All operators -/

/-- An equality of operands of one type. -/
theorem simulates_applyEquality (equality : op = .equal ∨ op = .notEqual) {type : ValueType}
    (ofOperands : List.Forall₂ (Simulates scope type) operands lowered)
    (enough : 2 ≤ operands.length)
    (apart : ∀ a b, op.operandAt operands 0 = .ok (.string a) →
      op.operandAt operands 1 = .ok (.string b) → stringId a = stringId b → a = b) :
    Simulates scope .boolean (op.apply operands) (.ofOperator op lowered) := by
  have operand (index : Nat) (inside : index < operands.length) :=
    simulates_operandAt op ofOperands inside (.float (Scalar.zero : K))
  obtain ⟨same, compared, equal, different⟩ :=
    simulates_equality (operand 0 (by omega)) (operand 1 (by omega)) apart
  refine Simulates.boolean_iff.2 ?_
  rcases equality with rfl | rfl
  · refine ⟨same, ?_, equal⟩
    rw [apply, compared]
    rfl
  · refine ⟨!same, ?_, different⟩
    rw [apply, compared]
    rfl

/-- Any other operator on operands of its signature. -/
theorem simulates_apply (different : ¬(op = .equal ∨ op = .notEqual))
    (admitted : op.signature.arity.admits operands.length = true)
    (ofOperands : List.Forall₂ (Simulates scope op.signature.argument) operands lowered) :
    Simulates scope op.signature.result (op.apply operands) (.ofOperator op lowered) := by
  have count := Arity.least_le_of_admits admitted
  have operand (index : Nat) (inside : index < operands.length) :=
    simulates_operandAt op ofOperands inside (.float (Scalar.zero : K))
  cases op <;> simp only [signature, Arity.exactly, Arity.atLeast] at count operand ofOperands ⊢
  case equal | notEqual => simp at different
  case add =>
    refine simulates_chain (fun x y => rfl) (fun x => ?_) ofOperands
    rw [Exact.zero_eq, zero_add]
  case multiply =>
    refine simulates_chain (fun x y => rfl) (fun x => ?_) ofOperands
    rw [Exact.one_eq, one_mul]
  case all => exact simulates_search (fun _ => rfl) (fun _ => rfl) ofOperands
  case any => exact simulates_search (fun _ => rfl) (fun _ => rfl) ofOperands
  case color => exact simulates_color ofOperands count
  case not =>
    obtain ⟨b, given, evaluated⟩ := Simulates.boolean_iff.1 (operand 0 (by omega))
    refine Simulates.boolean_iff.2 ⟨!b, ?_, ?_⟩
    · rw [apply, given]
      rfl
    · rw [ShaderExpr.ofOperator, ShaderExpr.eval, evaluated]
      rfl
  case abs | floor | ceil | round | sqrt | sin | cos =>
    refine simulates_unary (operand 0 (by omega)) fun x evaluated => ?_
    simp only [ShaderExpr.ofOperator, List.range_succ, List.range_zero, List.nil_append,
      List.map_cons, List.map_nil, ShaderExpr.eval, ShaderExpr.evalAll, evaluated]
    rfl
  case subtract | divide | remainder | power =>
    refine simulates_binary (operand 0 (by omega)) (operand 1 (by omega)) fun x y first second => ?_
    simp only [ShaderExpr.ofOperator, List.range_succ, List.range_zero, List.nil_append,
      List.cons_append, List.map_cons, List.map_nil, ShaderExpr.eval, ShaderExpr.evalAll, first,
      second]
    rfl
  case greater | greaterEqual | less | lessEqual =>
    refine simulates_comparison (operand 0 (by omega)) (operand 1 (by omega))
      fun x y first second => ?_
    simp only [ShaderExpr.ofOperator, ShaderExpr.eval, first, second]
    rfl
  case atan =>
    rw [apply, ShaderExpr.ofOperator, ← ofOperands.length_eq]
    split
    · refine simulates_binary (operand 0 (by omega)) (operand 1 (by omega))
        fun x y first second => ?_
      simp only [List.range_succ, List.range_zero, List.nil_append, List.cons_append,
        List.map_cons, List.map_nil, ShaderExpr.eval, ShaderExpr.evalAll, first, second]
      rfl
    · refine simulates_unary (operand 0 (by omega)) fun x evaluated => ?_
      simp only [List.range_succ, List.range_zero, List.nil_append, List.map_cons, List.map_nil,
        ShaderExpr.eval, ShaderExpr.evalAll, evaluated]
      rfl
  case clamp =>
    obtain ⟨x, given, evaluated⟩ := Simulates.number_iff.1 (operand 0 (by omega))
    obtain ⟨low, givenLow, evaluatedLow⟩ := Simulates.number_iff.1 (operand 1 (by omega))
    obtain ⟨high, givenHigh, evaluatedHigh⟩ := Simulates.number_iff.1 (operand 2 (by omega))
    refine Simulates.number_iff.2
      ⟨Scalar.minimum (Scalar.maximum x low) high, ?_, ?_⟩
    · rw [apply, given, givenLow, givenHigh]
      rfl
    · simp only [ShaderExpr.ofOperator, List.range_succ, List.range_zero, List.nil_append,
        List.cons_append, List.map_cons, List.map_nil, ShaderExpr.eval, ShaderExpr.evalAll,
        evaluated, evaluatedLow, evaluatedHigh]
      rfl

end Operator

end MapStyle
