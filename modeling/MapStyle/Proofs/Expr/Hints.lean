import MapStyle.Proofs.Expr.Congruence
import MapStyle.Proofs.Expr.ParserTyping

/-!
# Where an expected type goes

The type that a context expects is a hint for literals and for properties of undeclared type. A
call of a branching form, which gives one of several results, hands it on to the first of them, and
there it is more than a hint: a result of another type is refused. The rest of the results follow
the first.

Two things come of this. What is parsed once is parsed to the same when its own type is expected
(`Argument.Stable`). And a comparison, which takes its hint from the scalar on either side, finds
its operands as they are parsed alone, but for one case: a text on the right, meant as a color, is
taken for a text, and branches of colors on the left are refused (`TakenForText`).
-/

set_option linter.unusedSectionVars false

namespace MapStyle.Parse

variable {W N : Type} [Scalar W] [Scalar N] [Precision W N] {parser : Parser W N}

/-! ## Branching forms -/

/-- The names of the forms that give one of several results. -/
def branching : List String := ["case", "match", "interpolate"]

/-- The forms that give one of several results. -/
inductive Form.Branches : Form → Prop
  | case : Form.Branches .case
  | labelled : Form.Branches .labelled
  | interpolate : Form.Branches .interpolate

theorem mem_branching {name : String} {f : Form} (called : Form.ofName? name = some f) :
    name ∈ branching ↔ f.Branches := by
  constructor
  · intro member
    simp only [branching, List.mem_cons, List.not_mem_nil, or_false] at member
    rcases member with rfl | rfl | rfl <;> cases called <;> constructor
  · intro several
    rcases Option.or_eq_some_iff.1 called with found | ⟨-, plain⟩
    · have listed : (name, f) ∈ forms := mem_of_lookup found
      cases several <;> simp [forms] at listed <;> simp [branching, listed]
    · obtain ⟨op, -, rfl⟩ := Option.map_eq_some_iff.1 plain
      cases several

/-- What is written is a call of a branching form. -/
def IsBranching (json : Json) : Prop :=
  ∃ name ∈ branching, ∃ args, json = .array (.string name :: args)

/-- A call of a form reads its hint through one of its arguments only, and has the type that this
argument has. Whatever else it parses does not depend on the hint. -/
def HandsDown (parser : Parser W N) (name : String) (args : List (Argument W N)) (f : Form) :
    Prop :=
  ∃ result ∈ args, ∃ rest : Expr W N → ValueType → Parsed (Expr W N),
    (∀ hint, form parser hint name args f = do
      let (first, common) ← result.parseBranch parser name hint
      rest first common) ∧
    ∀ first e, rest first first.type = .ok e → e.type = first.type

variable {hint : Option ValueType} {name : String} {args : List (Argument W N)} {e : Expr W N}

theorem case_handsDown (parsed : form parser hint name args .case = .ok e) :
    HandsDown parser name args .case := by
  simp only [form] at parsed
  split at parsed
  next => cases parsed
  next enough =>
    -- The condition in front of the first result is parsed alike with every hint.
    rcases args with _ | ⟨condition, _ | ⟨result, _ | ⟨last, others⟩⟩⟩
    · simp at enough
    · simp at enough
    · simp at enough
    simp only [bind_eq_ok, branches] at parsed
    obtain ⟨_, ⟨c, parsedCondition, -⟩, -⟩ := parsed
    refine ⟨result, by simp, fun first common => do
      let after ← branches parser name (some common) (last :: others)
      return .case ((c, first) :: after.1) after.2 after.2.type, fun hint => ?_, ?_⟩
    · simp only [form, if_neg enough, branches, parsedCondition]
      simp only [bind_assoc, pure_bind]
      rfl
    · intro first e ran
      simp only [bind_eq_ok, pure_eq_ok] at ran
      obtain ⟨⟨others, fallback⟩, ran, rfl⟩ := ran
      exact branches_asked ran _ rfl

theorem labelled_handsDown (parsed : form parser hint name args .labelled = .ok e) :
    HandsDown parser name args .labelled := by
  obtain ⟨input, label, rest, type, x, _, _, rfl, enough, scalar, parsedInput, ran, -⟩ :=
    labelled_eq_ok parsed
  rcases rest with _ | ⟨result, _ | ⟨last, others⟩⟩
  · simp at enough
  · simp at enough
  simp only [bind_eq_ok, labelledBranches] at ran
  obtain ⟨value, labelled, -⟩ := ran
  refine ⟨result, by simp, fun first common => do
    let after ← labelledBranches parser name (some common) x type (last :: others)
    return .case ((equality .equal x (.literal value), first) :: after.1) after.2 after.2.type,
    fun hint => ?_, ?_⟩
  · simp only [form, if_neg enough, scalar, labelledBranches, parsedInput, labelled]
    simp only [bind_assoc, pure_bind]
    rfl
  · intro first e ran
    simp only [bind_eq_ok, pure_eq_ok] at ran
    obtain ⟨⟨others, fallback⟩, ran, rfl⟩ := ran
    exact labelledBranches_asked ran _ rfl

theorem interpolate_handsDown (parsed : form parser hint name args .interpolate = .ok e) :
    HandsDown parser name args .interpolate := by
  simp only [form] at parsed
  split at parsed
  next curve input rest =>
    split at parsed
    next => cases parsed
    next enough =>
      rcases rest with _ | ⟨stop, _ | ⟨output, others⟩⟩
      · simp at enough
      · simp at enough
      simp only [bind_eq_ok, stops] at parsed
      obtain ⟨blend, named, x, parsedInput, all, ran, -⟩ := parsed
      split at ran
      next => cases ran
      next n read =>
        refine ⟨output, by simp, fun first common => do
          let others ← stops parser name (some common) (some n) others
          interpolation parser name blend x ((n, first) :: others), fun hint => ?_, ?_⟩
        · simp only [form, if_neg enough, stops, named, parsedInput, read, ascend]
          simp only [bind_assoc, pure_bind]
          rfl
        · intro first e ran
          simp only [bind_eq_ok, interpolation] at ran
          obtain ⟨others, -, made⟩ := ran
          split at made
          next =>
            cases made
            rfl
          next => cases made
  next => cases parsed

/-- A branching form hands its hint down to the first of its results. -/
theorem form_handsDown {f : Form} (several : f.Branches)
    (parsed : form parser hint name args f = .ok e) : HandsDown parser name args f := by
  cases several with
  | case => exact case_handsDown parsed
  | labelled => exact labelled_handsDown parsed
  | interpolate => exact interpolate_handsDown parsed

/-- Forms other than branches, properties and literals do not look at their hint. -/
theorem form_hint {f : Form} (single : ¬f.Branches) (lookup : f ≠ .property)
    (written : f ≠ .literal) (asked : Option ValueType) :
    form parser asked name args f = form parser hint name args f := by
  cases f with
  | property => exact absurd rfl lookup
  | literal => exact absurd rfl written
  | case => exact absurd .case single
  | labelled => exact absurd .labelled single
  | interpolate => exact absurd .interpolate single
  | _ => rfl

/-! ## Its own type expected -/

/-- Whatever the argument is parsed to, it is parsed to the same where the type of that is
expected. -/
def Argument.Stable (argument : Argument W N) : Prop :=
  ∀ hint e, argument.parse hint = .ok e → argument.parse (some e.type) = .ok e

theorem ofText_stable {s : String} (parsed : ofText parser s hint = .ok e) :
    ofText parser s (some e.type) = .ok e := by
  unfold ofText at parsed
  split at parsed
  next =>
    split at parsed
    next c read =>
      cases parsed
      simp [ofText, Expr.type, Value.type, read]
    next => cases parsed
  next =>
    cases parsed
    simp [ofText, Expr.type, Value.type]

theorem ofNumbers_stable {items : List Json} (parsed : ofNumbers parser items hint = .ok e) :
    ofNumbers parser items (some e.type) = .ok e := by
  unfold ofNumbers at parsed
  split at parsed
  next => cases parsed
  next numbers read =>
    split at parsed
    next =>
      split at parsed
      next c combined =>
        cases parsed
        simp [ofNumbers, Expr.type, Value.type, read, combined]
      next => cases parsed
    next =>
      cases parsed
      simp [ofNumbers, Expr.type, Value.type, read]

theorem ofProperty_stable (parsed : ofProperty parser name hint = .ok e) :
    ofProperty parser name (some e.type) = .ok e := by
  unfold ofProperty at parsed
  split at parsed
  next without =>
    cases parsed
    simp [ofProperty, Expr.type, without]
  next schema declared =>
    split at parsed
    next => cases parsed
    next declaration found =>
      split at parsed
      next color =>
        cases parsed
        simp [ofProperty, Expr.type, declared, found, color.1]
      next =>
        cases parsed
        have other : ¬(declaration.type = .string ∧ some declaration.type = some .color) := by
          rintro ⟨text, color⟩
          simp [text] at color
        simp only [ofProperty, declared, found]
        exact if_neg other

theorem Argument.Stable.parseBranch {argument : Argument W N} (stable : argument.Stable)
    {operator : String} {common : ValueType}
    (parsed : argument.parseBranch parser operator hint = .ok (e, common)) :
    argument.parseBranch parser operator (some e.type) = .ok (e, e.type) := by
  obtain ⟨parsed, -, -⟩ := Argument.parseBranch_eq_ok parsed
  simp only [Argument.parseBranch, stable hint e parsed, unify, bind_eq_ok, expect_eq_ok,
    pure_eq_ok]
  exact ⟨e, rfl, e.type, ⟨(), rfl, rfl⟩, rfl⟩

/-- Where its own type is required, what was parsed in any place is accepted. -/
theorem Argument.Stable.parseAs {argument : Argument W N} (stable : argument.Stable)
    (parsed : argument.parse hint = .ok e) (operator : String) :
    argument.parseAs parser operator e.type = .ok e := by
  simp only [Argument.parseAs, stable hint e parsed, bind_eq_ok, expect_eq_ok, pure_eq_ok]
  exact ⟨e, rfl, (), rfl, rfl⟩

theorem form_stable {f : Form} (stable : ∀ argument ∈ args, argument.Stable)
    (parsed : form parser hint name args f = .ok e) :
    form parser (some e.type) name args f = .ok e := by
  by_cases several : f.Branches
  · obtain ⟨result, member, rest, reads, typed⟩ := form_handsDown several parsed
    simp only [reads, bind_eq_ok] at parsed ⊢
    obtain ⟨⟨first, common⟩, parsedFirst, ran⟩ := parsed
    obtain ⟨-, rfl, -⟩ := Argument.parseBranch_eq_ok parsedFirst
    -- The first result is parsed again, now with its own type expected; whatever follows has been
    -- parsed with this type before.
    rw [typed first e ran]
    exact ⟨(first, first.type), (stable result member).parseBranch parsedFirst, ran⟩
  cases f with
  | property =>
    simp only [form] at parsed ⊢
    split at parsed
    next argument =>
      simp only [bind_eq_ok] at parsed ⊢
      obtain ⟨property, named, parsed⟩ := parsed
      exact ⟨property, named, ofProperty_stable parsed⟩
    next => cases parsed
  | literal =>
    simp only [form] at parsed ⊢
    split at parsed
    next argument =>
      split at parsed
      next items written => exact ofNumbers_stable parsed
      next => exact stable argument List.mem_cons_self _ _ parsed
    next => cases parsed
  | _ =>
    rw [← parsed]
    exact form_hint several (by simp) (by simp) _

/-- What is parsed with any hint, or with none, is parsed to the same where its own type is
expected. -/
theorem tree_stable (json : Json) : (Argument.mk json (tree parser json)).Stable := by
  refine TreeInduction.tree ⟨?bool, ?number, ?text, ?numbers, ?refused, ?call⟩ json
  case bool | number => exact fun _ _ _ parsed => parsed
  case text => exact fun _ _ _ parsed => ofText_stable parsed
  case numbers => exact fun _ _ _ parsed => ofNumbers_stable parsed
  case refused => exact fun _ _ _ _ parsed => parsed
  case call =>
    intro name f args called stable hint e parsed
    exact form_stable stable parsed

/-- The answer of inference may be given back to it: what is parsed with any hint, or with none, is
parsed to the same tree where the type of that tree is expected, and is accepted as the value of a
style property of this type. -/
theorem own_type_expected {json : Json} (parsed : tree parser json hint = .ok e) :
    tree parser json (some e.type) = .ok e ∧
      ∀ name, property parser.environment name e.type json = .ok e := by
  refine ⟨tree_stable json hint e parsed, fun name => ?_⟩
  have elsewhere : tree ⟨parser.environment, name⟩ json hint = .ok e :=
    tree_accepted (q := ⟨parser.environment, name⟩) (.refl parser.environment) parsed
  exact (tree_stable json).parseAs elsewhere "value"

/-- A color by the kind of a feature: the first result is a color in any place, and so the text and
the property after it are taken for colors. -/
def toneByKind : Json :=
  let number (n : Int) : Json := .number (.integer n)
  .array [.string "match", .array [.string "get", .string "kind"],
    .string "alarm", .array [.string "rgb", number 255, number 0, number 0],
    .string "calm", .string "#0000ff",
    .array [.string "get", .string "tone"]]

/-- Features with a kind and a tone, both of which are declared to be texts. -/
def tones : Environment Double Single :=
  ⟨some ((Dictionary.empty.insert "kind" ⟨.string, none, none⟩).insert "tone"
    ⟨.string, none, none⟩), .empty, .empty⟩

theorem toneByKind_expected :
    ∃ e, tree (.start tones) toneByKind none = .ok e ∧
      tree (.start tones) toneByKind (some .color) = .ok e ∧
      property tones "fill-color" .color toneByKind = .ok e := by
  obtain ⟨e, parsed, color⟩ : ∃ e, tree (.start tones) toneByKind none = .ok e ∧ e.type = .color :=
    ⟨_, rfl, rfl⟩
  obtain ⟨again, accepted⟩ := own_type_expected parsed
  rw [color] at again accepted
  exact ⟨e, parsed, again, accepted "fill-color"⟩

/-! ## Another type expected of a color -/

/-- A color that the argument is parsed to without a hint is the same where another type is
expected, and the branches of a branching form are refused there. -/
def Argument.Colored (parser : Parser W N) (argument : Argument W N) : Prop :=
  ∀ e other, argument.parse none = .ok e → e.type = .color → other ≠ .color →
    (¬IsBranching argument.json → argument.parse (some other) = .ok e) ∧
    (IsBranching argument.json → ∃ operator ∈ branching,
      argument.parse (some other) = .error (parser.typeMismatch operator other.name .color))

variable {other : ValueType}

/-- As a result of a branching form, a color is refused in either case: by a branching form
within, or by this one. -/
theorem Argument.Colored.refused {argument : Argument W N} (colored : argument.Colored parser)
    (parsed : argument.parse none = .ok e) (color : e.type = .color) (apart : other ≠ .color)
    (several : name ∈ branching) :
    ∃ operator ∈ branching, argument.parseBranch parser name (some other) =
      .error (parser.typeMismatch operator other.name .color) := by
  obtain ⟨kept, within⟩ := colored e other parsed color apart
  by_cases nested : IsBranching argument.json
  · obtain ⟨operator, member, refused⟩ := within nested
    refine ⟨operator, member, ?_⟩
    rw [Argument.parseBranch, refused]
    rfl
  · refine ⟨name, several, ?_⟩
    have mismatch : unify parser name (some other) e =
        .error (parser.typeMismatch name other.name .color) := by
      rw [unify, expect, color, if_neg (Ne.symm apart)]
      rfl
    rw [Argument.parseBranch, kept nested]
    change (do return (e, ← unify parser name (some other) e)) = _
    rw [mismatch]
    rfl

theorem ofProperty_keeps (parsed : ofProperty parser name none = .ok e) (color : e.type = .color)
    (apart : other ≠ .color) : ofProperty parser name (some other) = .ok e := by
  unfold ofProperty at parsed ⊢
  cases declared : parser.environment.schema with
  | none =>
    rw [declared] at parsed
    cases parsed
    cases color
  | some schema =>
    rw [declared] at parsed
    simpa [apart] using parsed

theorem ofText_unhinted {s : String} (parsed : ofText parser s none = .ok e) : e.type ≠ .color := by
  cases parsed
  simp [Expr.type, Value.type]

theorem ofNumbers_unhinted {items : List Json} (parsed : ofNumbers parser items none = .ok e) :
    e.type ≠ .color := by
  unfold ofNumbers at parsed
  split at parsed
  next => cases parsed
  next =>
    cases parsed
    simp [Expr.type, Value.type]

theorem form_refuses {f : Form} (several : f.Branches) (named : name ∈ branching)
    (colored : ∀ argument ∈ args, argument.Colored parser)
    (parsed : form parser none name args f = .ok e)
    (color : e.type = .color) (apart : other ≠ .color) :
    ∃ operator ∈ branching, form parser (some other) name args f =
      .error (parser.typeMismatch operator other.name .color) := by
  obtain ⟨result, member, rest, reads, typed⟩ := form_handsDown several parsed
  simp only [reads, bind_eq_ok] at parsed
  obtain ⟨⟨first, common⟩, parsedFirst, ran⟩ := parsed
  obtain ⟨found, rfl, -⟩ := Argument.parseBranch_eq_ok parsedFirst
  have same : e.type = first.type := typed first e ran
  obtain ⟨operator, listed, refused⟩ :=
    (colored result member).refused found (same.symm.trans color) apart named
  refine ⟨operator, listed, ?_⟩
  rw [reads, refused]
  rfl

theorem form_keeps {f : Form} (single : ¬f.Branches)
    (colored : ∀ argument ∈ args, argument.Colored parser)
    (parsed : form parser none name args f = .ok e)
    (color : e.type = .color) (apart : other ≠ .color) :
    form parser (some other) name args f = .ok e := by
  cases f with
  | property =>
    simp only [form] at parsed ⊢
    split at parsed
    next argument =>
      simp only [bind_eq_ok] at parsed ⊢
      obtain ⟨property, named, parsed⟩ := parsed
      exact ⟨property, named, ofProperty_keeps parsed color apart⟩
    next => cases parsed
  | literal =>
    simp only [form] at parsed ⊢
    split at parsed
    next argument =>
      split at parsed
      next items written => exact absurd color (ofNumbers_unhinted parsed)
      next scalar =>
        refine (colored argument List.mem_cons_self e other parsed color apart).1 ?_
        rintro ⟨name, -, args, call⟩
        exact scalar _ call
    next => cases parsed
  | _ =>
    rw [← parsed]
    exact form_hint single (by simp) (by simp) _

theorem tree_colored (json : Json) : (Argument.mk json (tree parser json)).Colored parser := by
  refine TreeInduction.tree ⟨?bool, ?number, ?text, ?numbers, ?refused, ?call⟩ json
  case bool | number => rintro _ e other ⟨⟩ ⟨⟩
  case text =>
    intro s e other parsed color
    have parsed : ofText parser s none = .ok e := parsed
    exact absurd color (ofText_unhinted parsed)
  case numbers => exact fun _ _ _ parsed color => absurd color (ofNumbers_unhinted parsed)
  case refused => rintro _ _ e other ⟨⟩
  case call =>
    intro name f args called colored e other parsed color apart
    have named : IsBranching (.array (.string name :: args)) ↔ f.Branches := by
      rw [← mem_branching called]
      simp [IsBranching]
    refine ⟨fun single => ?_, fun several => ?_⟩
    · exact form_keeps (mt named.2 single) colored parsed color apart
    · have several : f.Branches := named.1 several
      exact form_refuses several ((mem_branching called).2 several) colored parsed color apart

/-! ## Comparisons -/

/-- The right of a comparison is taken for a text, and the left gives one of several colors. -/
structure TakenForText (left right : Json) (type : ValueType) : Prop where
  color : type = .color
  several : IsBranching left
  text : ∃ s, right = .string s

/-- A scalar has the type that it is written with, unless it is a text that is read as a color. -/
theorem scalar_type {json : Json} {type : ValueType} (scalar : scalarType? json = some type)
    (parsed : tree parser json hint = .ok e) :
    e.type = type ∨ e.type = .color ∧ hint = some .color ∧ type = .string ∧
      ∃ s, json = .string s := by
  cases json with
  | bool | number =>
    cases scalar
    cases parsed
    exact .inl rfl
  | string s =>
    cases scalar
    simp only [tree, ofText] at parsed
    split at parsed
    next expected =>
      split at parsed <;> cases parsed
      exact .inr ⟨rfl, expected, rfl, s, rfl⟩
    next =>
      cases parsed
      exact .inl rfl
  | null | array | object => cases scalar

variable {a b : Json} {left right : Expr W N}

/-- With the hint of a comparison, the left operand is parsed as it is alone. A scalar on the right
has the type of the left, unless it is read as a color, and to be taken for a text then matters to
branches only. -/
theorem operand_kept (ofLeft : tree parser a none = .ok left)
    (ofRight : tree parser b (some left.type) = .ok right) (same : right.type = left.type)
    (free : ¬TakenForText a b left.type) :
    tree parser a ((scalarType? a).or (scalarType? b)) = .ok left := by
  cases written : scalarType? a with
  | some type =>
    rcases scalar_type written ofLeft with rfl | ⟨-, hinted, -⟩
    · exact tree_stable a none left ofLeft
    · cases hinted
  | none =>
    cases read : scalarType? b with
    | none => exact ofLeft
    | some type =>
      rcases scalar_type read ofRight with rfl | ⟨color, -, rfl, text⟩
      · rw [same]
        exact tree_stable a none left ofLeft
      · rw [same] at color
        refine (tree_colored a left .string ofLeft color (by simp)).1 fun several => ?_
        exact free ⟨color, several, text⟩

/-- Beside a text that is meant as a color, the branches on the left are refused. -/
theorem operand_refused (ofLeft : tree parser a none = .ok left)
    (taken : TakenForText a b left.type) :
    ∃ operator ∈ branching, tree parser a ((scalarType? a).or (scalarType? b)) =
      .error (parser.typeMismatch operator ValueType.string.name .color) := by
  obtain ⟨color, several, s, rfl⟩ := taken
  have unwritten : scalarType? a = none := by
    obtain ⟨name, -, args, rfl⟩ := several
    rfl
  rw [unwritten]
  exact (tree_colored a left .string ofLeft color (by simp)).2 several

/-- A comparison is accepted, in any place, when its left operand is parsed alone and its right one
as the type of the left, and a list of numbers is neither. The one exception is a text that is
meant as a color, beside a branching form on the left: that form is asked for texts, and refused
for giving colors. -/
theorem comparison_parsed {name : String} {op : Operator}
    (compares : name = "==" ∧ op = .equal ∨ name = "!=" ∧ op = .notEqual) (hint : Option ValueType)
    (ofLeft : tree parser a none = .ok left) (comparable : left.type ≠ .numberArray)
    (ofRight : tree parser b (some left.type) = .ok right) (same : right.type = left.type) :
    (¬TakenForText a b left.type →
      tree parser (.array [.string name, a, b]) hint = .ok (equality op left right)) ∧
    (TakenForText a b left.type → ∃ operator ∈ branching,
      tree parser (.array [.string name, a, b]) hint =
        .error (.expression parser.property
          (.typeMismatch operator ValueType.string.name .color))) := by
  have called : Form.ofName? name = some (.equality op) := by
    rcases compares with ⟨rfl, rfl⟩ | ⟨rfl, rfl⟩ <;> rfl
  rw [tree_call called]
  refine ⟨fun free => ?accepted, fun taken => ?refused⟩
  case accepted =>
    simp only [arguments, form, bind_eq_ok]
    refine ⟨left, operand_kept ofLeft ofRight same free, right, ofRight, ?_⟩
    rw [if_neg comparable]
    exact bind_eq_ok.2 ⟨(), expect_eq_ok.2 same, rfl⟩
  case refused =>
    obtain ⟨operator, listed, mismatch⟩ := operand_refused ofLeft taken
    refine ⟨operator, listed, ?_⟩
    simp only [arguments, form, mismatch]
    rfl

/-- Red, by its channels. -/
def red : Json :=
  let number (n : Int) : Json := .number (.integer n)
  .array [.string "rgb", number 255, number 0, number 0]

/-- A parser at the filter of a style that declares nothing. -/
def atFilter : Parser Double Single := ⟨.empty, "filter"⟩

/-- One of two colors. -/
def redOrBlack : Json := .array [.string "case", .bool true, red, .string "#000000"]

theorem red_parsed : ∃ left : Expr Double Single,
    tree atFilter red none = .ok left ∧ left.type = .color :=
  ⟨_, rfl, rfl⟩

theorem redOrBlack_parsed : ∃ left : Expr Double Single,
    tree atFilter redOrBlack none = .ok left ∧ left.type = .color :=
  ⟨_, rfl, rfl⟩

theorem redText_parsed : ∃ right : Expr Double Single,
    tree atFilter (.string "#ff0000") (some .color) = .ok right ∧ right.type = .color :=
  ⟨_, rfl, rfl⟩

theorem red_compared :
    ∃ left either right : Expr Double Single,
      (tree atFilter red none = .ok left ∧ left.type = .color) ∧
      (tree atFilter redOrBlack none = .ok either ∧ either.type = .color) ∧
      (tree atFilter (.string "#ff0000") (some .color) = .ok right ∧ right.type = .color) ∧
      tree atFilter (.array [.string "==", red, .string "#ff0000"]) none =
        .ok (equality .equal left right) ∧
      ∃ operator ∈ branching,
        tree atFilter (.array [.string "!=", redOrBlack, .string "#ff0000"]) none =
          .error (.expression "filter"
            (.typeMismatch operator ValueType.string.name .color)) := by
  obtain ⟨left, ofLeft, color⟩ := red_parsed
  obtain ⟨either, ofEither, alike⟩ := redOrBlack_parsed
  obtain ⟨right, ofRight, same⟩ := redText_parsed
  refine ⟨left, either, right, ⟨ofLeft, color⟩, ⟨ofEither, alike⟩, ⟨ofRight, same⟩, ?accepted,
    ?refused⟩
  case accepted =>
    refine (comparison_parsed (.inl ⟨rfl, rfl⟩) none ofLeft (by simp [color])
      (color ▸ ofRight) (same.trans color.symm)).1 ?_
    rintro ⟨-, ⟨name, listed, args, call⟩, -⟩
    cases call
    simp [branching] at listed
  case refused =>
    refine (comparison_parsed (.inr ⟨rfl, rfl⟩) none ofEither (by simp [alike])
      (alike ▸ ofRight) (same.trans alike.symm)).2 ?_
    exact ⟨alike, ⟨"case", by simp [branching], _, rfl⟩, "#ff0000", rfl⟩

/-- So it is not true that a comparison is accepted whenever both operands are of one type. -/
theorem comparison_misled :
    ¬∀ (parser : Parser Double Single) (a b : Json) (left right : Expr Double Single),
      tree parser a none = .ok left → left.type ≠ .numberArray →
      tree parser b (some left.type) = .ok right → right.type = left.type →
      ∀ name ∈ ["==", "!="], ∃ e, tree parser (.array [.string name, a, b]) none = .ok e := by
  intro accepted
  obtain ⟨left, ofLeft, color⟩ := redOrBlack_parsed
  obtain ⟨right, ofRight, same⟩ := redText_parsed
  obtain ⟨e, parsed⟩ := accepted atFilter redOrBlack (.string "#ff0000") left right
    ofLeft (by simp [color]) (color ▸ ofRight) (same.trans color.symm) "==" (by simp)
  cases parsed

end MapStyle.Parse
