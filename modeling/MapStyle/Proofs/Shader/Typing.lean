import MapStyle.Expr.Parse
import MapStyle.Style.Lowering

/-!
# Typing of shader expressions

The rules by which a shader compiler types an expression over the unpacked attributes of a plan
and the slots of a uniform block. Evaluation here makes up for a wrong type or a missing argument;
a compiler does not, so a well-typed expression is one that can be printed. The expressions that
lowering makes of operators and of curves are well-typed when their operands are.
-/

namespace MapStyle

/-! ## The rules -/

/-- The types an operator takes two operands of, and the type of its result. -/
inductive BinaryOp.Types : BinaryOp → ShaderType → ShaderType → Prop
  | arithmetic {op : BinaryOp} (isArithmetic : op.isArithmetic = true) : Types op .float .float
  | ordering {op : BinaryOp} (orders : op ∈ [greater, greaterEqual, less, lessEqual]) :
      Types op .float .bool
  | equality {op : BinaryOp} (compares : op ∈ [equal, notEqual]) (type : ShaderType) :
      Types op type .bool
  | logic {op : BinaryOp} (connects : op ∈ [and, or]) : Types op .bool .bool

/-- The number of arguments of a function. -/
def Builtin.arity : Builtin → Nat
  | abs | floor | ceil | sqrt | sin | cos | atan => 1
  | atan2 | pow => 2
  | clamp | mix => 3

/-- An expression over the attributes of a plan and the slots of a layout has a type. Every node
keeps its rule: an unpacked attribute is read as the type it has, a uniform out of a declared
slot, whose vector can be read as any type, and operands have the types that their operator or
function takes. -/
inductive ShaderExpr.HasType {W N : Type} (plan : Plan W N) (layout : UniformLayout) :
    ShaderExpr N → ShaderType → Prop
  | float (value : N) : HasType plan layout (.float value) .float
  | bool (value : Bool) : HasType plan layout (.bool value) .bool
  | vec4 (value : Vec4 N) : HasType plan layout (.vec4 value) .vec4
  | unpacked {a : Attribute W N} (member : a ∈ plan.attributes) :
      HasType plan layout (.unpacked a.unpackedName a.shaderType) a.shaderType
  | uniform {slot : UniformSlot} (member : slot ∈ layout.slots) (type : ShaderType) :
      HasType plan layout (.uniform slot.name type) type
  | not {operand : ShaderExpr N} (ofOperand : HasType plan layout operand .bool) :
      HasType plan layout (.not operand) .bool
  | binary {op : BinaryOp} {left right : ShaderExpr N} {operands result : ShaderType}
      (types : op.Types operands result) (ofLeft : HasType plan layout left operands)
      (ofRight : HasType plan layout right operands) :
      HasType plan layout (.binary op left right) result
  | call {function : Builtin} {args : List (ShaderExpr N)} (scalar : function ≠ .mix)
      (count : args.length = function.arity)
      (ofArgs : ∀ arg ∈ args, HasType plan layout arg .float) :
      HasType plan layout (.call function args) .float
  | mix {low high factor : ShaderExpr N} {type : ShaderType}
      (blendable : type = .float ∨ type = .vec4) (ofLow : HasType plan layout low type)
      (ofHigh : HasType plan layout high type) (ofFactor : HasType plan layout factor .float) :
      HasType plan layout (.call .mix [low, high, factor]) type
  | select {ifFalse ifTrue condition : ShaderExpr N} {type : ShaderType}
      (ofFalse : HasType plan layout ifFalse type) (ofTrue : HasType plan layout ifTrue type)
      (ofCondition : HasType plan layout condition .bool) :
      HasType plan layout (.select ifFalse ifTrue condition) type
  | makeVec4 {parts : List (ShaderExpr N)} (count : parts.length = 4)
      (ofParts : ∀ part ∈ parts, HasType plan layout part .float) :
      HasType plan layout (.makeVec4 parts) .vec4

namespace ShaderExpr

variable {W N : Type} {plan : Plan W N} {layout : UniformLayout}

/-- The type that is computed for an expression is the one the rules give it. -/
theorem HasType.type_eq {s : ShaderExpr N} {type : ShaderType}
    (typed : s.HasType plan layout type) : s.type = type := by
  induction typed with
  | float | bool | vec4 | unpacked | uniform | not | makeVec4 => rfl
  | binary types _ _ ofLeft _ =>
    rw [ShaderExpr.type]
    cases types with
    | arithmetic isArithmetic => rw [if_pos isArithmetic, ofLeft]
    | ordering orders =>
      simp only [List.mem_cons, List.not_mem_nil, or_false] at orders
      rcases orders with rfl | rfl | rfl | rfl <;> rfl
    | equality compares =>
      simp only [List.mem_cons, List.not_mem_nil, or_false] at compares
      rcases compares with rfl | rfl <;> rfl
    | logic connects =>
      simp only [List.mem_cons, List.not_mem_nil, or_false] at connects
      rcases connects with rfl | rfl <;> rfl
  | call scalar =>
    rw [ShaderExpr.type]
    rintro first rest rfl
    exact absurd rfl scalar
  | mix _ _ _ _ ofLow => exact ofLow
  | select _ _ _ _ ofTrue => exact ofTrue

/-- A constant has the type of its value. -/
theorem hasType_ofValue? [Scalar N] [Precision W N] {value : Value W N} {s : ShaderExpr N}
    (constant : ofValue? value = some s) :
    s.HasType plan layout (ShaderType.of value.type) := by
  cases value with
  | number n =>
    cases constant
    exact .float _
  | boolean b =>
    cases constant
    exact .bool b
  | color c =>
    cases constant
    exact .vec4 _
  | string text =>
    cases constant
    exact .float _
  | numberArray items => cases constant

/-! ## Operators -/

/-- Operands that are chained by an operator on their own type keep it. -/
theorem hasType_chain {op : BinaryOp} {type : ShaderType} (types : op.Types type type)
    {empty : ShaderExpr N} (ofEmpty : empty.HasType plan layout type)
    {operands : List (ShaderExpr N)}
    (typed : ∀ operand ∈ operands, operand.HasType plan layout type) :
    (chain op empty operands).HasType plan layout type := by
  cases operands with
  | nil => exact ofEmpty
  | cons first rest =>
    obtain ⟨ofFirst, ofRest⟩ := List.forall_mem_cons.1 typed
    have fold (combined : ShaderExpr N) (ofCombined : combined.HasType plan layout type) :
        (rest.foldl (.binary op) combined).HasType plan layout type := by
      clear ofFirst typed
      induction rest generalizing combined with
      | nil => exact ofCombined
      | cons next rest ih =>
        obtain ⟨ofNext, ofRest⟩ := List.forall_mem_cons.1 ofRest
        exact ih ofRest _ (.binary types ofCombined ofNext)
    exact fold first ofFirst

variable [Scalar N]

section Operands

variable {operands : List (ShaderExpr N)}

/-- Where operands are numbers, so is a missing one. -/
theorem hasType_getD (typed : ∀ operand ∈ operands, operand.HasType plan layout .float)
    (index : Nat) :
    (operands.getD index (.float Scalar.zero)).HasType plan layout .float := by
  rw [List.getD_eq_getElem?_getD]
  cases found : operands[index]? with
  | none => exact .float _
  | some operand => exact typed operand (List.mem_of_getElem? found)

/-- A function on the first operands. -/
theorem hasType_call (function : Builtin) (scalar : function ≠ .mix)
    (typed : ∀ operand ∈ operands, operand.HasType plan layout .float) :
    (call function ((List.range function.arity).map fun i =>
      operands.getD i (.float Scalar.zero))).HasType plan layout .float := by
  refine .call scalar (by rw [List.length_map, List.length_range]) ?_
  intro arg member
  obtain ⟨i, -, rfl⟩ := List.mem_map.1 member
  exact hasType_getD typed i

theorem hasType_equality {op : Operator} (compares : op = .equal ∨ op = .notEqual)
    (count : operands.length = 2) {type : ShaderType}
    (typed : ∀ operand ∈ operands, operand.HasType plan layout type) :
    (ofOperator op operands).HasType plan layout .bool := by
  match operands, count with
  | [left, right], _ =>
    obtain ⟨ofLeft, ofRight⟩ := List.forall_mem_cons.1 typed
    have ofRight := ofRight right List.mem_cons_self
    rcases compares with rfl | rfl
    · exact .binary (.equality (by decide) type) ofLeft ofRight
    · exact .binary (.equality (by decide) type) ofLeft ofRight

/-- What an operator is lowered to has the type of its result when the operands have the type of
its arguments. An operand of a logical operator must not be missing, because there is no zero
that could stand for it. -/
theorem hasType_ofOperator {op : Operator} (scalar : ¬(op = .equal ∨ op = .notEqual))
    (admitted : op.signature.arity.admits operands.length = true)
    (typed : ∀ operand ∈ operands,
      operand.HasType plan layout (ShaderType.of op.signature.argument)) :
    (ofOperator op operands).HasType plan layout (ShaderType.of op.signature.result) := by
  cases op with
  | equal => exact absurd (.inl rfl) scalar
  | notEqual => exact absurd (.inr rfl) scalar
  | add | multiply => exact hasType_chain (.arithmetic rfl) (.float _) typed
  | all | any => exact hasType_chain (.logic (by decide)) (.bool _) typed
  | subtract | divide | remainder =>
    exact .binary (.arithmetic rfl) (hasType_getD typed 0) (hasType_getD typed 1)
  | greater | greaterEqual | less | lessEqual =>
    exact .binary (.ordering (by decide)) (hasType_getD typed 0) (hasType_getD typed 1)
  | not =>
    match operands, admitted with
    | operand :: _, _ => exact .not (typed operand List.mem_cons_self)
  | abs | floor | ceil | sqrt | sin | cos | power | clamp =>
    exact hasType_call _ (by decide) typed
  | round =>
    refine .call (by decide) rfl (List.forall_mem_singleton.2 ?_)
    exact .binary (.arithmetic rfl) (hasType_getD typed 0) (.float _)
  | atan =>
    show HasType plan layout (if operands.length = 2 then _ else _) .float
    split
    next => exact hasType_call .atan2 (by decide) typed
    next => exact hasType_call .atan (by decide) typed
  | color =>
    have channel (i : Nat) : HasType plan layout (.binary .divide
        (operands.getD i (.float Scalar.zero)) (.float (Scalar.ofNat 255))) .float :=
      .binary (.arithmetic rfl) (hasType_getD typed i) (.float _)
    have alpha : HasType plan layout (if operands.length = 4 then
        operands.getD 3 (.float Scalar.zero) else .float Scalar.one) .float := by
      split
      next => exact hasType_getD typed 3
      next => exact .float _
    refine .makeVec4 rfl ?_
    intro part member
    simp only [List.mem_cons, List.not_mem_nil, or_false] at member
    rcases member with rfl | rfl | rfl | rfl
    · exact channel 0
    · exact channel 1
    · exact channel 2
    · exact alpha

end Operands

/-! ## Curves and decisions -/

variable [Scalar W] [Precision W N]

theorem hasType_factor (curve : Curve W) {x : ShaderExpr N} (ofInput : x.HasType plan layout .float)
    (low high : W) : (factor curve x low high).HasType plan layout .float := by
  have offset : HasType plan layout (.binary .subtract x (.float (narrow low))) .float :=
    .binary (.arithmetic rfl) ofInput (.float _)
  have linear : HasType plan layout (.binary .divide (.binary .subtract x (.float (narrow low)))
      (.float (narrow (high - low)))) .float := .binary (.arithmetic rfl) offset (.float _)
  refine .call (by decide) rfl (List.forall_mem_cons.2 ⟨?_, List.forall_mem_cons.2 ⟨.float _,
    List.forall_mem_singleton.2 (.float _)⟩⟩)
  cases curve with
  | linear => exact linear
  | exponential base =>
    show HasType plan layout (if base == Scalar.one then _ else _) .float
    split
    next => exact linear
    next =>
      have grown : HasType plan layout (.call .pow [.float (narrow base),
          .binary .subtract x (.float (narrow low))]) .float :=
        .call (by decide) rfl
          (List.forall_mem_cons.2 ⟨.float _, List.forall_mem_singleton.2 offset⟩)
      exact .binary (.arithmetic rfl) (.binary (.arithmetic rfl) grown (.float _)) (.float _)

theorem hasType_segments (curve : Curve W) {x below : ShaderExpr N} {type : ShaderType}
    (blendable : type = .float ∨ type = .vec4) (ofInput : x.HasType plan layout .float)
    (ofBelow : below.HasType plan layout type) {stops : List (W × ShaderExpr N)}
    (typed : ∀ stop ∈ stops, stop.2.HasType plan layout type) :
    (segments curve x below stops).HasType plan layout type := by
  induction stops generalizing below with
  | nil => exact ofBelow
  | cons low rest ih =>
    obtain ⟨ofLow, ofRest⟩ := List.forall_mem_cons.1 typed
    cases rest with
    | nil => exact ofBelow
    | cons high rest =>
      have mixed := HasType.mix blendable ofLow (ofRest high List.mem_cons_self)
        (hasType_factor curve ofInput low.1 high.1)
      exact ih (.select ofBelow mixed (.binary (.ordering (by decide)) ofInput (.float _))) ofRest

/-- What an interpolation is lowered to has the type of its outputs. -/
theorem hasType_ofStops (curve : Curve W) {x : ShaderExpr N} {type : ShaderType}
    (blendable : type = .float ∨ type = .vec4) (ofInput : x.HasType plan layout .float)
    {stops : List (W × ShaderExpr N)} (nonempty : stops ≠ [])
    (typed : ∀ stop ∈ stops, stop.2.HasType plan layout type) :
    (ofStops curve x stops).HasType plan layout type := by
  cases stops with
  | nil => exact absurd rfl nonempty
  | cons first rest =>
    exact hasType_segments curve blendable ofInput (typed first List.mem_cons_self) typed

end ShaderExpr

end MapStyle
