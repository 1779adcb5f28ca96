import MapStyle.Proofs.Shader.Phrases
import MapStyle.Proofs.Shader.Typing

/-!
# The source of shader expressions

Every well-typed expression is written as one phrase, whose value is that of the expression in
every scope that binds what the expression can read. Some expressions share a phrase: a truth
value of the uniform block is written like the comparison it is taken by, and a constant vector
like one that is made of constants. All others are told apart by their sources.
-/

namespace MapStyle

open Text

theorem forall_mem_triple {α : Type} {holds : α → Prop} {a b c : α} (first : holds a)
    (second : holds b) (third : holds c) : ∀ x ∈ [a, b, c], holds x :=
  List.forall_mem_cons.2 ⟨first, List.forall_mem_cons.2 ⟨second, List.forall_mem_singleton.2 third⟩⟩

namespace ShaderExpr

variable {W N : Type}

/-! ## Literals -/

mutual

/-- The numbers that stand in an expression. -/
def literals : ShaderExpr N → List N
  | float v => [v]
  | vec4 v => v.components
  | bool _ | unpacked _ _ | uniform _ _ => []
  | not operand => literals operand
  | binary _ left right => literals left ++ literals right
  | call _ args => literalsOfAll args
  | select ifFalse ifTrue condition =>
    literals ifFalse ++ (literals ifTrue ++ literals condition)
  | makeVec4 parts => literalsOfAll parts

/-- The numbers that stand in some expressions. -/
def literalsOfAll : List (ShaderExpr N) → List N
  | [] => []
  | e :: rest => literals e ++ literalsOfAll rest

end

theorem literalsOfAll_eq (es : List (ShaderExpr N)) : literalsOfAll es = es.flatMap literals := by
  induction es with
  | nil => rfl
  | cons e rest ih => rw [literalsOfAll, List.flatMap_cons, ih]

variable [Scalar N]

/-- All numbers of an expression are finite, and none is a negative zero. -/
def Printable (s : ShaderExpr N) : Prop :=
  ∀ v ∈ s.literals, Scalar.isFinite v = true ∧ v ≠ -Scalar.zero

instance [DecidableEq N] (s : ShaderExpr N) : Decidable s.Printable :=
  List.decidableBAll (fun v => Scalar.isFinite v = true ∧ v ≠ -Scalar.zero) s.literals

namespace Printable

theorem of_mem {es : List (ShaderExpr N)}
    (printable : ∀ v ∈ literalsOfAll es, Scalar.isFinite v = true ∧ v ≠ -Scalar.zero)
    {e : ShaderExpr N} (member : e ∈ es) : e.Printable := by
  intro v inLiterals
  rw [literalsOfAll_eq] at printable
  exact printable v (List.mem_flatMap.2 ⟨e, member, inLiterals⟩)

theorem binary {op : BinaryOp} {left right : ShaderExpr N}
    (printable : (ShaderExpr.binary op left right).Printable) : left.Printable ∧ right.Printable :=
  List.forall_mem_append.1 printable

theorem select {ifFalse ifTrue condition : ShaderExpr N}
    (printable : (ShaderExpr.select ifFalse ifTrue condition).Printable) :
    ifFalse.Printable ∧ ifTrue.Printable ∧ condition.Printable := by
  obtain ⟨inFalse, others⟩ := List.forall_mem_append.1 printable
  exact ⟨inFalse, List.forall_mem_append.1 others⟩

theorem mix {low high factor : ShaderExpr N}
    (printable : (call .mix [low, high, factor]).Printable) :
    low.Printable ∧ high.Printable ∧ factor.Printable :=
  ⟨of_mem printable (by simp), of_mem printable (by simp), of_mem printable (by simp)⟩

end Printable

/-! ## Phrases -/

/-- A number as a phrase. -/
def phraseOfNumber (v : N) : Phrase N :=
  if Scalar.lt v Scalar.zero then .group .plain .comma [.word (.number v)] else .word (.number v)

/-- What goes before a comparison of operands of a type. -/
def headOf : BinaryOp → ShaderType → PhraseHead
  | .equal, .vec4 => .all
  | .notEqual, .vec4 => .any
  | _, _ => .plain

/-- A uniform as a phrase. -/
def phraseOfUniform (name : String) : ShaderType → Phrase N
  | .float => .word (.component name)
  | .bool =>
    .group .plain (.operator .greater) [.word (.component name), .word (.number Scalar.half)]
  | .vec4 => .word (.uniform name)

mutual

/-- The phrase that an expression is written as. -/
def phrase : ShaderExpr N → Phrase N
  | float v => phraseOfNumber v
  | bool b => .word (.truth b)
  | vec4 v => .group .vec4 .comma (v.components.map phraseOfNumber)
  | unpacked name _ => .word (.unpacked name)
  | uniform name type => phraseOfUniform name type
  | not operand => .group .not .comma [phrase operand]
  | binary op left right =>
    .group (headOf op left.type) (.operator op) [phrase left, phrase right]
  | call function args => .group (.call function) .comma (phrases args)
  | select ifFalse ifTrue condition =>
    .group .select .comma [phrase ifFalse, phrase ifTrue, phrase condition]
  | makeVec4 parts => .group .vec4 .comma (phrases parts)

def phrases : List (ShaderExpr N) → List (Phrase N)
  | [] => []
  | e :: rest => phrase e :: phrases rest

end

theorem phrases_eq (es : List (ShaderExpr N)) : phrases es = es.map phrase := by
  induction es with
  | nil => rfl
  | cons e rest ih => rw [phrases, List.map_cons, ih]

theorem writeAll_eq (es : List (ShaderExpr N)) : writeAll es = es.map write := by
  induction es with
  | nil => rfl
  | cons e rest ih => rw [writeAll, List.map_cons, ih]

theorem evalAll_eq (scope : ShaderScope N) (es : List (ShaderExpr N)) :
    evalAll scope es = es.map (eval scope) := by
  induction es with
  | nil => rfl
  | cons e rest ih => rw [evalAll, List.map_cons, ih]

end ShaderExpr

namespace Phrase

variable {N : Type} [Scalar N]

theorem texts_eq (ps : List (Phrase N)) : texts ps = ps.map text := by
  induction ps with
  | nil => rfl
  | cons p rest ih => rw [texts, List.map_cons, ih]

/-- A group of one phrase. -/
theorem text_single (head : PhraseHead) (joint : PhraseJoint) (p : Phrase N) :
    (group head joint [p]).text = head.text.toList ++ '(' :: (p.text ++ [')']) := by
  rw [text, texts, texts, List.intercalate_singleton]

/-- A group of two phrases. -/
theorem text_pair (head : PhraseHead) (joint : PhraseJoint) (p q : Phrase N) :
    (group head joint [p, q]).text =
      head.text.toList ++ '(' :: (p.text ++ (joint.text ++ (q.text ++ [')']))) := by
  rw [text, texts_cons]
  rfl

theorem values_eq (scope : ShaderScope N) (ps : List (Phrase N)) :
    values scope ps = ps.map (value scope) := by
  induction ps with
  | nil => rfl
  | cons p rest ih => rw [values, List.map_cons, ih]

end Phrase

/-- A scope binds the unpacked attributes of a plan, and every slot of a layout to a vector. -/
structure ShaderScope.Binds {W N : Type} (scope : ShaderScope N) (plan : Plan W N)
    (layout : UniformLayout) : Prop where
  unpacked : ∀ a ∈ plan.attributes, ∃ value, scope.unpacked a.unpackedName = some value
  uniforms : ∀ slot ∈ layout.slots, ∃ v, scope.uniforms slot.name = some (.vec4 v)

namespace ShaderExpr

variable {W N : Type} [Scalar N] {plan : Plan W N} {layout : UniformLayout}
  {s t : ShaderExpr N} {type other : ShaderType}

section Written

/-- Phrases with commas between them are written like a group. -/
theorem parenthesized_eq (head : PhraseHead) (ps : List (Phrase N)) :
    head.text.toList ++ parenthesized (ps.map Phrase.text) =
      (Phrase.group head .comma ps).text := by
  rw [parenthesized, Phrase.text, Phrase.texts_eq]
  rfl

/-- Arguments that are written as their phrases are written like a group of them. -/
theorem write_group (head : PhraseHead) {args : List (ShaderExpr N)}
    (each : ∀ arg ∈ args, arg.write = arg.phrase.text) :
    head.text.toList ++ parenthesized (writeAll args) =
      (Phrase.group head .comma (phrases args)).text := by
  rw [← parenthesized_eq, phrases_eq, writeAll_eq, List.map_map]
  rw [List.map_congr_left each]
  rfl

theorem reduction_eq (op : BinaryOp) (type : ShaderType) :
    reduction op type = (headOf op type).text := by
  cases op <;> cases type <;> rfl

variable [Scalar.Written N]

theorem wgslFloat_eq {v : N} (printable : Scalar.isFinite v = true ∧ v ≠ -Scalar.zero) :
    wgslFloat v = (phraseOfNumber v).text := by
  rw [Scalar.Written.wgslFloat_eq v printable.1 printable.2, phraseOfNumber]
  split
  next =>
    rw [Phrase.text_single]
    rfl
  next => rfl

theorem writeUniform_eq (name : String) (type : ShaderType) :
    writeUniform name type = (phraseOfUniform name type : Phrase N).text := by
  cases type with
  | float =>
    show ("uniforms." ++ name ++ ".x").toList = "uniforms.".toList ++ (name.toList ++ ['.', 'x'])
    rw [String.toList_append, String.toList_append, List.append_assoc]
    rfl
  | vec4 => exact String.toList_append
  | bool =>
    have half : (Scalar.literal (Scalar.half : N)).toList = ['0', '.', '5'] := by
      rw [Scalar.Written.literal_half]
      rfl
    show ("(uniforms." ++ name ++ ".x > 0.5)").toList = _
    rw [phraseOfUniform, Phrase.text_pair]
    show _ = '(' :: ("uniforms.".toList ++ (name.toList ++ ['.', 'x']) ++
      ([' ', '>', ' '] ++ ((Scalar.literal (Scalar.half : N)).toList ++ [')'])))
    rw [half, String.toList_append, String.toList_append, List.append_assoc, List.append_assoc,
      List.append_assoc]
    rfl

/-- An expression is written as its phrase. -/
theorem write_eq (typed : s.HasType plan layout type) (printable : s.Printable) :
    s.write = s.phrase.text := by
  induction typed with
  | float v => exact wgslFloat_eq (printable v List.mem_cons_self)
  | bool b => rfl
  | vec4 v =>
    have each : v.components.map wgslFloat =
        (v.components.map phraseOfNumber).map Phrase.text := by
      rw [List.map_map]
      exact List.map_congr_left fun component member => wgslFloat_eq (printable component member)
    show "vec4<f32>".toList ++ parenthesized (v.components.map wgslFloat) = _
    rw [each]
    exact parenthesized_eq .vec4 _
  | unpacked => rfl
  | uniform => exact writeUniform_eq _ _
  | @not operand _ ofOperand =>
    rw [phrase, Phrase.text_single, ← ofOperand printable]
    rfl
  | @binary op left right operands result types typedLeft typedRight ofLeft ofRight =>
    obtain ⟨inLeft, inRight⟩ := printable.binary
    rw [phrase, Phrase.text_pair, ← ofLeft inLeft, ← ofRight inRight, ← reduction_eq]
    show (reduction op left.type).toList ++ '(' :: write left ++ ' ' :: op.symbol.toList ++
      ' ' :: write right ++ [')'] = _
    simp [PhraseJoint.text]
  | @call function args scalar count typedArgs ofArgs =>
    exact write_group (.call function) fun arg member =>
      ofArgs arg member (.of_mem printable member)
  | @mix low high factor _ blendable typedLow typedHigh typedFactor ofLow ofHigh ofFactor =>
    obtain ⟨inLow, inHigh, inFactor⟩ := printable.mix
    exact write_group (.call .mix) (forall_mem_triple (ofLow inLow) (ofHigh inHigh)
      (ofFactor inFactor))
  | @select ifFalse ifTrue condition _ _ _ _ ofFalse ofTrue ofCondition =>
    obtain ⟨inFalse, inTrue, inCondition⟩ := printable.select
    exact write_group .select (forall_mem_triple (ofFalse inFalse) (ofTrue inTrue)
      (ofCondition inCondition))
  | @makeVec4 parts count typedParts ofParts =>
    exact write_group .vec4 fun part member => ofParts part member (.of_mem printable member)

end Written

/-! ## Values -/

theorem value_phraseOfNumber (scope : ShaderScope N) (v : N) :
    (phraseOfNumber v).value scope = .float v := by
  unfold phraseOfNumber
  split
  next => rfl
  next => rfl

theorem values_phrases {scope : ShaderScope N} {args : List (ShaderExpr N)}
    (each : ∀ arg ∈ args, arg.eval scope = arg.phrase.value scope) :
    Phrase.values scope (phrases args) = evalAll scope args := by
  rw [Phrase.values_eq, phrases_eq, evalAll_eq, List.map_map]
  exact (List.map_congr_left each).symm

theorem value_phraseOfUniform {scope : ShaderScope N} {name : String} {v : Vec4 N}
    (bound : scope.uniforms name = some (.vec4 v)) (type : ShaderType) :
    (phraseOfUniform name type).value scope = readAs type (.vec4 v) := by
  cases type with
  | float =>
    show ShaderValue.float (((scope.uniforms name).map ShaderValue.asFloat).getD Scalar.zero) = _
    rw [bound]
    rfl
  | bool =>
    show BinaryOp.apply .greater (.float (((scope.uniforms name).map ShaderValue.asFloat).getD
      Scalar.zero)) (.float Scalar.half) = _
    rw [bound]
    rfl
  | vec4 =>
    show ShaderValue.vec4 (((scope.uniforms name).map ShaderValue.asVec4).getD Vec4.zero) = _
    rw [bound]
    rfl

/-- The value of an expression is that of its phrase. -/
theorem eval_eq (typed : s.HasType plan layout type) {scope : ShaderScope N}
    (binds : scope.Binds plan layout) : s.eval scope = s.phrase.value scope := by
  induction typed with
  | float v => exact (value_phraseOfNumber scope v).symm
  | bool b => rfl
  | vec4 v =>
    have each : Phrase.values scope (v.components.map phraseOfNumber) =
        v.components.map ShaderValue.float := by
      rw [Phrase.values_eq, List.map_map]
      exact List.map_congr_left fun component _ => value_phraseOfNumber scope component
    rw [phrase, Phrase.value, each]
    rfl
  | @unpacked a member =>
    obtain ⟨value, bound⟩ := binds.unpacked a member
    show (scope.unpacked a.unpackedName).getD _ = (scope.unpacked a.unpackedName).getD _
    rw [bound]
    rfl
  | @uniform slot member type =>
    obtain ⟨v, bound⟩ := binds.uniforms slot member
    rw [phrase, value_phraseOfUniform bound, eval, bound]
    rfl
  | not _ ofOperand =>
    rw [eval, ofOperand]
    rfl
  | @binary op left right _ _ _ _ _ ofLeft ofRight =>
    rw [eval, ofLeft, ofRight, phrase, Phrase.value]
    cases op <;> cases left.type <;> rfl
  | call _ _ _ ofArgs =>
    rw [eval, ← values_phrases ofArgs]
    rfl
  | @mix low high factor _ _ _ _ _ ofLow ofHigh ofFactor =>
    rw [eval, ← values_phrases (forall_mem_triple ofLow ofHigh ofFactor)]
    rfl
  | select _ _ _ ofFalse ofTrue ofCondition =>
    rw [eval, ofFalse, ofTrue, ofCondition]
    rfl
  | makeVec4 _ _ ofParts =>
    rw [eval, ← values_phrases ofParts]
    rfl

/-! ## Legibility -/

/-- The names of a plan and a layout are identifiers, and those of the plan start like requests for
attributes. -/
structure Names (plan : Plan W N) (layout : UniformLayout) : Prop where
  unpacked : ∀ a ∈ plan.attributes, (ShaderWord.unpacked a.unpackedName : ShaderWord N).Legible
  uniforms : ∀ slot ∈ layout.slots, Run Identifier.isWord slot.name.toList

theorem legible_phraseOfNumber {v : N} (finite : Scalar.isFinite v = true) :
    (phraseOfNumber v).Legible := by
  unfold phraseOfNumber
  split
  next =>
    exact .group (fun _ => rfl) (List.forall_mem_singleton.2 (.word (.number finite)))
  next => exact .word (.number finite)

theorem legible_phrases {args : List (ShaderExpr N)} (head : PhraseHead)
    (each : ∀ arg ∈ args, arg.phrase.Legible) :
    (Phrase.group head .comma (phrases args)).Legible := by
  rw [phrases_eq]
  exact .group (fun _ => rfl) (List.forall_mem_map.2 each)

/-- The phrase of an expression is legible. -/
theorem legible [Scalar.Written N] (names : Names plan layout) (typed : s.HasType plan layout type)
    (printable : s.Printable) : s.phrase.Legible := by
  induction typed with
  | float v => exact legible_phraseOfNumber (printable v List.mem_cons_self).1
  | bool b => exact .word (.truth b)
  | vec4 v =>
    refine .group (fun _ => rfl) (List.forall_mem_map.2 fun component member => ?_)
    exact legible_phraseOfNumber (printable component member).1
  | unpacked member => exact .word (names.unpacked _ member)
  | uniform member type =>
    have word := names.uniforms _ member
    cases type with
    | float => exact .word (.component word)
    | vec4 => exact .word (.uniform word)
    | bool =>
      have half : (ShaderWord.number (Scalar.half : N)).Legible :=
        .number Scalar.Written.isFinite_half
      exact .group (by simp) (List.forall_mem_cons.2 ⟨.word (.component word),
        List.forall_mem_singleton.2 (.word half)⟩)
  | not _ ofOperand => exact .group (by simp) (List.forall_mem_singleton.2 (ofOperand printable))
  | binary _ _ _ ofLeft ofRight =>
    obtain ⟨inLeft, inRight⟩ := printable.binary
    exact .group (by simp) (List.forall_mem_cons.2 ⟨ofLeft inLeft,
      List.forall_mem_singleton.2 (ofRight inRight)⟩)
  | call _ _ _ ofArgs =>
    exact legible_phrases _ fun arg member => ofArgs arg member (.of_mem printable member)
  | mix _ _ _ _ ofLow ofHigh ofFactor =>
    obtain ⟨inLow, inHigh, inFactor⟩ := printable.mix
    exact legible_phrases _ (forall_mem_triple (ofLow inLow) (ofHigh inHigh) (ofFactor inFactor))
  | select _ _ _ ofFalse ofTrue ofCondition =>
    obtain ⟨inFalse, inTrue, inCondition⟩ := printable.select
    exact .group (fun _ => rfl) (forall_mem_triple (ofFalse inFalse) (ofTrue inTrue)
      (ofCondition inCondition))
  | makeVec4 _ _ ofParts =>
    exact legible_phrases _ fun part member => ofParts part member (.of_mem printable member)

/-- Where all numbers of two expressions are finite and no negative zeros, and the expressions have
one source, they have one value in every scope. -/
def ReadAlike (plan : Plan W N) (layout : UniformLayout) (s t : ShaderExpr N) : Prop :=
  s.Printable → t.Printable → s.wgsl = t.wgsl →
    ∀ scope : ShaderScope N, scope.Binds plan layout → s.eval scope = t.eval scope

theorem readAlike [Scalar.Written N] (names : Names plan layout)
    (typed : s.HasType plan layout type) (typed' : t.HasType plan layout other) :
    ReadAlike plan layout s t := by
  intro printable printable' same scope binds
  have texts : s.phrase.text = t.phrase.text := by
    rw [← write_eq typed printable, ← write_eq typed' printable']
    exact String.ofList_injective same
  have phrases := Phrase.eq_of_text (legible names typed printable)
    (legible names typed' printable') texts
  rw [eval_eq typed binds, eval_eq typed' binds, phrases]

end ShaderExpr

end MapStyle
