import MapStyle.Packing.Identifier
import MapStyle.Proofs.Number.Interval
import MapStyle.Proofs.Number.Literal
import MapStyle.Shader.Wgsl

/-!
# Phrases of shader sources

How the source of a shader expression is put together, apart from the expressions: a phrase is a
word, or a group of phrases in parentheses with something written before it and between them.
A word reaches up to a parenthesis, a comma or a blank, and what comes before a parenthesis and
between phrases is known, so a text is written for one phrase only.

Phrases have values of their own. Where two expressions have one source, they have one phrase and
with it one value, although they need not be the same expression.
-/

namespace MapStyle

open Text

/-! ## Numbers -/

/-- Finite numbers are written as decimal literals that tell them apart, negative ones in
parentheses; and one half is written like the limit between the truth values. -/
class Scalar.Written (α : Type) [Scalar α] : Prop where
  literal_decimal : ∀ a : α, isFinite a = true → ∃ d, Decimal.Literal (literal a).toList d
  literal_injective : ∀ a b : α, isFinite a = true → isFinite b = true →
    literal a = literal b → a = b
  wgslFloat_eq : ∀ a : α, isFinite a = true → a ≠ -zero →
    wgslFloat a = if lt a zero then '(' :: (literal a).toList ++ [')'] else (literal a).toList
  isFinite_half : isFinite (half : α) = true
  literal_half : literal (half : α) = "0.5"

namespace Binary

/-- The range that literals are clamped to holds all finite numbers. -/
theorem narrowLimit_single :
    (Scalar.narrowLimit : Single).isNaN = false ∧ (-Scalar.narrowLimit : Single).isNaN = false ∧
      (Scalar.narrowLimit : Single).key = Format.single.infinityCode - 1 ∧
      (-Scalar.narrowLimit : Single).key = -(Format.single.infinityCode - 1) := by
  decide +kernel

theorem clamp_of_isFinite {x : Single} (finite : x.isFinite = true) :
    Scalar.clamp x (-Scalar.narrowLimit) Scalar.narrowLimit = x := by
  obtain ⟨number, number', most, least⟩ := narrowLimit_single
  have bound : x.magnitude < Format.single.infinityCode := of_decide_eq_true finite
  have place := natAbs_key x
  have below : lt x (-Scalar.narrowLimit) = false := by
    simp only [lt, isNaN_of_isFinite finite, number', least, Bool.not_false, Bool.true_and,
      decide_eq_false_iff_not]
    omega
  have above : lt Scalar.narrowLimit x = false := by
    simp only [lt, isNaN_of_isFinite finite, number, most, Bool.not_false, Bool.true_and,
      decide_eq_false_iff_not]
    omega
  show moved x _ _ = x
  rw [moved, below, above]
  rfl

/-- A finite number equals zero only as one of the zeros. -/
theorem eq_zero_of_equal {x : Single} (same : (x == Scalar.zero) = true)
    (positive : x ≠ -Scalar.zero) : x = Scalar.zero := by
  have vanishes := eq_zero_of_magnitude (equal_zero_iff.1 same)
  cases sign : x.isNegative with
  | false => rw [vanishes, sign]; rfl
  | true => exact absurd (by rw [vanishes, sign]; rfl) positive

instance : Scalar.Written Single where
  literal_decimal a finite := by
    obtain ⟨d, literal, -⟩ := exists_literal finite
    exact ⟨d, literal⟩
  literal_injective a b := literal_injective
  wgslFloat_eq a finite positive := by
    have number : Scalar.isNaN a = false := isNaN_of_isFinite finite
    rw [wgslFloat, number, Bool.false_or]
    split
    next same =>
      rw [eq_zero_of_equal same positive]
      rfl
    next =>
      rw [clamp_of_isFinite finite]
  isFinite_half := by decide
  literal_half := by decide

end Binary

/-- The characters that decimal literals are made of. -/
def Decimal.isLiteral (c : Char) : Bool := goesOn c || c == '-' || c == '+'

theorem Decimal.run_literal {text : List Char} {d : Decimal} (literal : Literal text d) :
    Run isLiteral text := by
  have digits {run : List Char} (inRun : Run Char.isDigit run) : Run isLiteral run := by
    intro c member
    simp [isLiteral, goesOn, inRun c member]
  have sign {run : List Char} {negative : Bool} (signed : Sign run negative) :
      Run isLiteral run := by
    cases signed with
    | absent => exact run_nil
    | plus | minus => exact List.forall_mem_singleton.2 (by decide)
  cases literal with
  | parts signed mantissa power =>
    refine List.forall_mem_append.2 ⟨List.forall_mem_append.2 ⟨sign signed, ?_⟩, ?_⟩
    · cases mantissa with
      | whole run => exact digits run
      | point before after =>
        refine List.forall_mem_append.2 ⟨digits before, ?_⟩
        exact List.forall_mem_cons.2 ⟨by decide, digits after⟩
    · cases power with
      | absent => exact run_nil
      | marked marked signed run =>
        refine List.forall_mem_cons.2 ⟨?_, List.forall_mem_append.2 ⟨sign signed, digits run⟩⟩
        rcases marked with rfl | rfl
        · decide
        · decide

/-! ## Words -/

/-- What is written without parentheses. -/
inductive ShaderWord (N : Type) where
  | number (value : N)
  | truth (value : Bool)
  /-- A name that is bound in the vertex stage. -/
  | unpacked (name : String)
  /-- A vector of the uniform block. -/
  | uniform (name : String)
  /-- The first component of a vector of the uniform block. -/
  | component (name : String)

namespace ShaderWord

variable {N : Type}

/-- Whether a word can go on with a character. -/
def goesOn (c : Char) : Bool := c != '(' && c != ')' && c != ',' && c != ' '

/-- What words of a kind have in common is how they start. -/
def kind : ShaderWord N → Nat
  | number _ => 0
  | truth _ => 1
  | unpacked _ => 2
  | uniform _ | component _ => 3

/-- The kind of the words that start with a character. -/
def kindOf (c : Char) : Nat :=
  if c = 't' ∨ c = 'f' then 1 else if c = 'p' ∨ c = 's' then 2 else if c = 'u' then 3 else 0

variable [Scalar N]

def text : ShaderWord N → List Char
  | number v => (Scalar.literal v).toList
  | truth b => (if b then "true" else "false").toList
  | unpacked name => name.toList
  | uniform name => "uniforms.".toList ++ name.toList
  | component name => "uniforms.".toList ++ (name.toList ++ ['.', 'x'])

/-- A word is a finite number or has a name that is an identifier. The names bound in the vertex
stage start like requests for attributes. -/
inductive Legible : ShaderWord N → Prop
  | number {v : N} (finite : Scalar.isFinite v = true) : Legible (.number v)
  | truth (b : Bool) : Legible (.truth b)
  | unpacked {name : String} (word : Run Identifier.isWord name.toList)
      (starts : name.toList.head? = some 'p' ∨ name.toList.head? = some 's') :
      Legible (.unpacked name)
  | uniform {name : String} (word : Run Identifier.isWord name.toList) : Legible (.uniform name)
  | component {name : String} (word : Run Identifier.isWord name.toList) :
      Legible (.component name)

/-- A character of an identifier or a literal belongs to a word. -/
theorem goesOn_of_isWord {c : Char} (inName : Identifier.isWord c = true) : goesOn c = true := by
  simp only [goesOn, Bool.and_eq_true, bne_iff_ne]
  refine ⟨⟨⟨?_, ?_⟩, ?_⟩, ?_⟩ <;> rintro rfl <;> exact absurd inName (by decide)

theorem goesOn_of_isLiteral {c : Char} (inLiteral : Decimal.isLiteral c = true) :
    goesOn c = true := by
  simp only [goesOn, Bool.and_eq_true, bne_iff_ne]
  refine ⟨⟨⟨?_, ?_⟩, ?_⟩, ?_⟩ <;> rintro rfl <;> exact absurd inLiteral (by decide)

variable [Scalar.Written N]

/-- A word starts like all words of its kind. -/
theorem Legible.starts {w : ShaderWord N} (legible : w.Legible) :
    ∃ c tail, w.text = c :: tail ∧ kindOf c = w.kind := by
  cases legible with
  | number finite =>
    obtain ⟨d, literal⟩ := Scalar.Written.literal_decimal _ finite
    obtain ⟨c, tail, starts, first⟩ := literal.starts
    refine ⟨c, tail, starts, ?_⟩
    show kindOf c = 0
    have other : ¬((c = 't' ∨ c = 'f') ∨ (c = 'p' ∨ c = 's') ∨ c = 'u') := by
      rcases first with rfl | rfl | digit | rfl
      · decide
      · decide
      · rintro ((rfl | rfl) | (rfl | rfl) | rfl) <;> exact absurd digit (by decide)
      · decide
    simp only [not_or] at other
    simp [kindOf, other]
  | truth b => cases b <;> exact ⟨_, _, rfl, rfl⟩
  | @unpacked name word starts =>
    rcases starts with first | first
    · obtain ⟨tail, same⟩ := List.head?_eq_some_iff.1 first
      exact ⟨'p', tail, same, rfl⟩
    · obtain ⟨tail, same⟩ := List.head?_eq_some_iff.1 first
      exact ⟨'s', tail, same, rfl⟩
  | @uniform name => exact ⟨'u', "niforms.".toList ++ name.toList, rfl, rfl⟩
  | @component name =>
    exact ⟨'u', "niforms.".toList ++ (name.toList ++ ['.', 'x']), rfl, rfl⟩

theorem Legible.run {w : ShaderWord N} (legible : w.Legible) : Run goesOn w.text := by
  have name {chars : List Char} (word : Run Identifier.isWord chars) : Run goesOn chars :=
    fun c member => goesOn_of_isWord (word c member)
  have block : Run goesOn "uniforms.".toList := List.all_eq_true.1 (by decide)
  cases legible with
  | number finite =>
    obtain ⟨d, literal⟩ := Scalar.Written.literal_decimal _ finite
    exact fun c member => goesOn_of_isLiteral (Decimal.run_literal literal c member)
  | truth b =>
    cases b with
    | true => exact List.all_eq_true.1 (show "true".toList.all goesOn = true by decide)
    | false => exact List.all_eq_true.1 (show "false".toList.all goesOn = true by decide)
  | unpacked word => exact name word
  | uniform word => exact List.forall_mem_append.2 ⟨block, name word⟩
  | component word =>
    have ending : Run goesOn ['.', 'x'] := List.all_eq_true.1 (by decide)
    exact List.forall_mem_append.2 ⟨block, List.forall_mem_append.2 ⟨name word, ending⟩⟩

/-- A word is told by its text. -/
theorem eq_of_text {w w' : ShaderWord N} (legible : w.Legible) (legible' : w'.Legible)
    (same : w.text = w'.text) : w = w' := by
  obtain ⟨c, tail, starts, ofKind⟩ := legible.starts
  obtain ⟨c', tail', starts', ofKind'⟩ := legible'.starts
  have kinds : w.kind = w'.kind := by
    rw [starts, starts'] at same
    rw [← ofKind, ← ofKind', (List.cons.inj same).1]
  have noPoint {name other : String} (word : Run Identifier.isWord name.toList)
      (same : name.toList = other.toList ++ ['.', 'x']) : False := by
    have inName : '.' ∈ name.toList := by simp [same]
    exact absurd (word '.' inName) (by decide)
  cases legible with
  | number finite =>
    cases legible' with
    | number finite' =>
      have literals := String.toList_injective same
      rw [Scalar.Written.literal_injective _ _ finite finite' literals]
    | _ => cases kinds
  | truth b =>
    cases legible' with
    | truth b' =>
      cases b <;> cases b'
      · rfl
      · exact absurd same (show "false".toList ≠ "true".toList by decide)
      · exact absurd same (show "true".toList ≠ "false".toList by decide)
      · rfl
    | _ => cases kinds
  | unpacked =>
    cases legible' with
    | unpacked => rw [String.toList_injective same]
    | _ => cases kinds
  | uniform word =>
    cases legible' with
    | uniform => rw [String.toList_injective (List.append_cancel_left same)]
    | component => exact (noPoint word (List.append_cancel_left same)).elim
    | _ => cases kinds
  | component =>
    cases legible' with
    | uniform word => exact (noPoint word (List.append_cancel_left same).symm).elim
    | component =>
      have names := List.append_cancel_right (List.append_cancel_left same)
      rw [String.toList_injective names]
    | _ => cases kinds

/-- The value of a word. -/
def value (scope : ShaderScope N) : ShaderWord N → ShaderValue N
  | number v => .float v
  | truth b => .bool b
  | unpacked name => (scope.unpacked name).getD (.bool false)
  | uniform name => .vec4 (((scope.uniforms name).map ShaderValue.asVec4).getD Vec4.zero)
  | component name => .float (((scope.uniforms name).map ShaderValue.asFloat).getD Scalar.zero)

end ShaderWord

/-! ## Phrases -/

/-- What is written before a group. -/
inductive PhraseHead where
  | plain
  | not
  | all
  | any
  | call (function : Builtin)
  | select
  | vec4

/-- What is written between the phrases of a group. -/
inductive PhraseJoint where
  | comma
  | operator (op : BinaryOp)

/-- A word, or phrases in parentheses. -/
inductive Phrase (N : Type) where
  | word (word : ShaderWord N)
  | group (head : PhraseHead) (joint : PhraseJoint) (parts : List (Phrase N))

namespace PhraseHead

def text : PhraseHead → String
  | plain => ""
  | not => "!"
  | all => "all"
  | any => "any"
  | call function => function.name
  | select => "select"
  | vec4 => "vec4<f32>"

/-- A head is told by its text. -/
theorem text_injective : Function.Injective text := by
  let heads := [plain, not, all, any, select, vec4] ++ Builtin.all.map call
  have found (head : PhraseHead) : heads.find? (·.text == head.text) = some head := by
    cases head with
    | call function => cases function <;> rfl
    | _ => rfl
  intro head other same
  have twice := found head
  rw [same, found other] at twice
  exact (Option.some.inj twice).symm

theorem run_text (head : PhraseHead) : Run ShaderWord.goesOn head.text.toList := by
  refine List.all_eq_true.1 ?_
  cases head with
  | call function => cases function <;> rfl
  | _ => rfl

variable {N : Type} [Scalar N]

/-- The value of a group of values. Parentheses alone change nothing, and neither does it matter
whether the comparison of an operator has to be reduced. -/
def apply : PhraseHead → PhraseJoint → List (ShaderValue N) → ShaderValue N
  | plain, .comma, [a] => a
  | plain, .operator op, [a, b] | all, .operator op, [a, b] | any, .operator op, [a, b] =>
    op.apply a b
  | not, _, [a] => .bool !a.asBool
  | call function, _, args => function.apply args
  | select, _, [ifFalse, ifTrue, condition] => if condition.asBool then ifTrue else ifFalse
  | vec4, _, parts => .vec4 (Vec4.ofList (parts.map ShaderValue.asFloat))
  | _, _, _ => .bool false

end PhraseHead

namespace PhraseJoint

def text : PhraseJoint → List Char
  | comma => [',', ' ']
  | operator op => ' ' :: (op.symbol.toList ++ [' '])

theorem symbol_injective : Function.Injective BinaryOp.symbol := by
  have found (op : BinaryOp) : BinaryOp.all.find? (·.symbol == op.symbol) = some op := by
    cases op <;> rfl
  intro op other same
  have twice := found op
  rw [same, found other] at twice
  exact (Option.some.inj twice).symm

theorem run_symbol (op : BinaryOp) : Run ShaderWord.goesOn op.symbol.toList := by
  refine List.all_eq_true.1 ?_
  cases op <;> rfl

/-- A joint is told by the text that starts with it. -/
theorem eq_of_append {joint joint' : PhraseJoint} {rest rest' : List Char}
    (same : joint.text ++ rest = joint'.text ++ rest') : joint = joint' ∧ rest = rest' := by
  cases joint with
  | comma =>
    cases joint' with
    | comma => exact ⟨rfl, List.append_cancel_left same⟩
    | operator op => cases (List.cons.inj same).1
  | operator op =>
    cases joint' with
    | comma => cases (List.cons.inj same).1
    | operator op' =>
      simp only [text, List.cons_append, List.append_assoc, List.cons.injEq, true_and] at same
      obtain ⟨ops, blanks⟩ := append_inj_of_run (run_symbol op) (run_symbol op')
        (stops_cons (by decide)) (stops_cons (by decide)) same
      rw [symbol_injective (String.toList_injective ops)]
      exact ⟨rfl, (List.cons.inj blanks).2⟩

end PhraseJoint

namespace Phrase

variable {N : Type}

@[elab_as_elim]
theorem structural {motive : Phrase N → Prop} (word : ∀ w, motive (word w))
    (group : ∀ head joint parts, (∀ part ∈ parts, motive part) → motive (group head joint parts))
    (p : Phrase N) : motive p := by
  refine @Phrase.rec N motive (fun parts => ∀ part ∈ parts, motive part) word group ?_ ?_ p
  · simp
  · exact fun part rest ofPart ofRest => List.forall_mem_cons.2 ⟨ofPart, ofRest⟩

variable [Scalar N]

mutual

def text : Phrase N → List Char
  | word w => w.text
  | group head joint parts =>
    head.text.toList ++ '(' :: (joint.text.intercalate (texts parts) ++ [')'])

def texts : List (Phrase N) → List (List Char)
  | [] => []
  | p :: rest => text p :: texts rest

end

mutual

def value (scope : ShaderScope N) : Phrase N → ShaderValue N
  | word w => w.value scope
  | group head joint parts => head.apply joint (values scope parts)

def values (scope : ShaderScope N) : List (Phrase N) → List (ShaderValue N)
  | [] => []
  | p :: rest => value scope p :: values scope rest

end

/-- Words are legible, and a group that has nothing to join is written as if it had commas. -/
inductive Legible : Phrase N → Prop
  | word {w : ShaderWord N} (legible : w.Legible) : Legible (.word w)
  | group {head : PhraseHead} {joint : PhraseJoint} {parts : List (Phrase N)}
      (single : parts.length < 2 → joint = .comma) (ofParts : ∀ p ∈ parts, Legible p) :
      Legible (.group head joint parts)

/-! ## One phrase for a text -/

/-- What may come after a phrase: nothing, the end of a group or a joint. -/
def Ends (rest : List Char) : Prop := ∀ c, rest.head? = some c → c = ')' ∨ c = ',' ∨ c = ' '

theorem Ends.stops {rest : List Char} (ends : Ends rest) : Stops ShaderWord.goesOn rest := by
  intro c first
  rcases ends c first with rfl | rfl | rfl <;> decide

theorem ends_close (rest : List Char) : Ends (')' :: rest) :=
  fun _ first => .inl (Option.some.inj first).symm

theorem ends_joint (joint : PhraseJoint) (rest : List Char) : Ends (joint.text ++ rest) := by
  cases joint with
  | comma => exact fun _ first => .inr (.inl (Option.some.inj first).symm)
  | operator op => exact fun _ first => .inr (.inr (Option.some.inj first).symm)

/-- A group after its first phrase. -/
def closing (joint : PhraseJoint) : List (Phrase N) → List Char
  | [] => [')']
  | p :: rest => joint.text ++ (p.text ++ closing joint rest)

theorem texts_cons (joint : PhraseJoint) (p : Phrase N) (rest : List (Phrase N)) :
    joint.text.intercalate (texts (p :: rest)) ++ [')'] = p.text ++ closing joint rest := by
  induction rest generalizing p with
  | nil => simp [texts, closing]
  | cons q rest ih =>
    rw [closing, ← ih q]
    simp [texts, List.intercalate]

theorem ends_closing (joint : PhraseJoint) (parts : List (Phrase N)) (rest : List Char) :
    Ends (closing joint parts ++ rest) := by
  cases parts with
  | nil => exact ends_close rest
  | cons p others =>
    rw [closing, List.append_assoc]
    exact ends_joint joint _

variable [Scalar.Written N]

/-- A phrase does not start like the end of a group. -/
theorem Legible.starts {p : Phrase N} (legible : p.Legible) :
    ∃ c tail, p.text = c :: tail ∧ c ≠ ')' := by
  have inRun {c : Char} {tail run : List Char} (inWord : Run ShaderWord.goesOn run)
      (starts : run = c :: tail) : c ≠ ')' := by
    rintro rfl
    have goes := inWord ')' (by simp [starts])
    exact absurd goes (by decide)
  cases legible with
  | word legible =>
    obtain ⟨c, tail, starts, -⟩ := legible.starts
    exact ⟨c, tail, starts, inRun legible.run starts⟩
  | @group head joint parts =>
    rw [text]
    cases starts : head.text.toList with
    | nil => exact ⟨'(', _, rfl, by decide⟩
    | cons c tail => exact ⟨c, _, rfl, inRun head.run_text starts⟩

/-- The other phrases that a phrase could be mistaken for: none. -/
def Told (p : Phrase N) : Prop :=
  ∀ q : Phrase N, q.Legible → ∀ r s, Ends r → Ends s → p.text ++ r = q.text ++ s → p = q ∧ r = s

omit [Scalar.Written N] in
theorem eq_of_closing {joint joint' : PhraseJoint} {parts parts' : List (Phrase N)}
    {r s : List Char} (told : ∀ p ∈ parts, p.Told) (legible : ∀ q ∈ parts', q.Legible)
    (same : closing joint parts ++ r = closing joint' parts' ++ s) :
    parts = parts' ∧ (parts ≠ [] → joint = joint') ∧ r = s := by
  induction parts generalizing parts' with
  | nil =>
    cases parts' with
    | nil => exact ⟨rfl, fun some => absurd rfl some, (List.cons.inj same).2⟩
    | cons q rest => cases joint' <;> cases (List.cons.inj same).1
  | cons p rest ih =>
    cases parts' with
    | nil => cases joint <;> cases (List.cons.inj same).1
    | cons q rest' =>
      obtain ⟨toldFirst, toldRest⟩ := List.forall_mem_cons.1 told
      obtain ⟨ofFirst, ofRest⟩ := List.forall_mem_cons.1 legible
      simp only [closing, List.append_assoc] at same
      obtain ⟨joints, same⟩ := PhraseJoint.eq_of_append same
      obtain ⟨rfl, others⟩ :=
        toldFirst q ofFirst _ _ (ends_closing _ _ _) (ends_closing _ _ _) same
      obtain ⟨rfl, -, rests⟩ := ih toldRest ofRest others
      exact ⟨rfl, fun _ => joints, rests⟩

/-- The parts of a group and what joins them are told by the text of the group. -/
theorem eq_of_parts {joint joint' : PhraseJoint} {parts parts' : List (Phrase N)} {r s : List Char}
    (told : ∀ p ∈ parts, p.Told) (legible : ∀ p ∈ parts, p.Legible)
    (legible' : ∀ q ∈ parts', q.Legible)
    (same : joint.text.intercalate (texts parts) ++ [')'] ++ r =
      joint'.text.intercalate (texts parts') ++ [')'] ++ s) :
    parts = parts' ∧ (2 ≤ parts.length → joint = joint') ∧ r = s := by
  cases parts with
  | nil =>
    cases parts' with
    | nil => exact ⟨rfl, by simp, (List.cons.inj same).2⟩
    | cons q rest =>
      obtain ⟨c, tail, starts, open'⟩ := (legible' q List.mem_cons_self).starts
      rw [texts_cons, starts] at same
      exact absurd (List.cons.inj same).1.symm open'
  | cons p rest =>
    cases parts' with
    | nil =>
      obtain ⟨c, tail, starts, open'⟩ := (legible p List.mem_cons_self).starts
      rw [texts_cons, starts] at same
      exact absurd (List.cons.inj same).1 open'
    | cons q rest' =>
      obtain ⟨toldFirst, toldRest⟩ := List.forall_mem_cons.1 told
      obtain ⟨ofFirst, ofRest⟩ := List.forall_mem_cons.1 legible'
      rw [texts_cons, texts_cons, List.append_assoc, List.append_assoc] at same
      obtain ⟨rfl, others⟩ :=
        toldFirst q ofFirst _ _ (ends_closing _ _ _) (ends_closing _ _ _) same
      obtain ⟨rfl, joints, rests⟩ := eq_of_closing toldRest ofRest others
      refine ⟨rfl, fun several => joints ?_, rests⟩
      rintro rfl
      simp at several

/-- A word is not mistaken for a group, because a parenthesis does not end it. -/
theorem told_word {w : ShaderWord N} (legible : w.Legible) : (word w).Told := by
  intro q legible' r s ends ends' same
  cases legible' with
  | word ofWord' =>
    obtain ⟨words, rests⟩ := append_inj_of_run legible.run ofWord'.run ends.stops ends'.stops same
    rw [ShaderWord.eq_of_text legible ofWord' words]
    exact ⟨rfl, rests⟩
  | @group head joint parts =>
    rw [text, text, List.append_assoc, List.cons_append] at same
    obtain ⟨-, opens⟩ := append_inj_of_run legible.run head.run_text ends.stops
      (stops_cons (by decide)) same
    rcases ends '(' (by rw [opens]; rfl) with other | other | other <;> cases other

/-- A text is written for one phrase, whatever comes after it. -/
theorem Legible.told {p : Phrase N} (legible : p.Legible) : p.Told := by
  induction p using structural with
  | word w =>
    cases legible with
    | word ofWord => exact told_word ofWord
  | group head joint parts ih =>
    cases legible with
    | group single ofParts =>
      intro q legible' r s ends ends' same
      cases legible' with
      | word ofWord' =>
        obtain ⟨others, -⟩ := told_word ofWord' _ (.group single ofParts) s r ends' ends same.symm
        cases others
      | @group head' joint' parts' single' ofParts' =>
        rw [text, text, List.append_assoc, List.append_assoc] at same
        obtain ⟨heads, groups⟩ := append_inj_of_run head.run_text head'.run_text
          (stops_cons (by decide)) (stops_cons (by decide)) same
        obtain rfl := PhraseHead.text_injective (String.toList_injective heads)
        obtain ⟨rfl, joints, rests⟩ := eq_of_parts (fun part member => ih part member
          (ofParts part member)) ofParts ofParts' (List.cons.inj groups).2
        rcases Nat.lt_or_ge parts.length 2 with few | several
        · rw [single few, single' few]
          exact ⟨rfl, rests⟩
        · rw [joints several]
          exact ⟨rfl, rests⟩

/-- Phrases of one text are the same. -/
theorem eq_of_text {p q : Phrase N} (legible : p.Legible) (legible' : q.Legible)
    (same : p.text = q.text) : p = q := by
  have ends : Ends [] := fun _ first => nomatch first
  exact (legible.told q legible' [] [] ends ends (by rw [same])).1

end Phrase

end MapStyle
