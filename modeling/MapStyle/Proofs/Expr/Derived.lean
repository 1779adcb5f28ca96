import Mathlib.Data.List.Forall2
import MapStyle.Proofs.Expr.ParserTyping

/-!
# What the forms without a node of their own mean

`match`, `in`, `between` and the color constructors are parsed into comparisons, branches and
literals. Here each has the meaning that its name promises, said without the tree it was parsed
to: `LabelledMeaning`, `MembershipMeaning`, `BetweenMeaning` and `ColorMeaning` relate the
arguments as they are written to the value of the whole in every context, and whatever the parser
accepts is shown to have them. The lists of labels, items and channels are of any length that is
accepted.
-/

set_option linter.unusedSectionVars false

namespace MapStyle

variable {W N : Type} [Scalar W] [Scalar N] [Precision W N]

namespace Parse

/-! ## What is written and what it means -/

/-- What is written is parsed to an expression of a type where that type is expected. -/
def ParsesAs (parser : Parser W N) (type : ValueType) (json : Json) (e : Expr W N) : Prop :=
  tree parser json (some type) = .ok e ∧ e.type = type

/-- Labels with their results and a fallback after them, as they are written and as they are
parsed. The first of the results is parsed with the hint of the whole form, and whatever comes
after it as the type of the whole. -/
inductive LabelledParse (parser : Parser W N) (type : ValueType) :
    Option ValueType → List Json → List (Value W N × Expr W N) → Expr W N → Prop
  | fallback {hint json e} (parsed : tree parser json hint = .ok e) (typed : e.type = type) :
      LabelledParse parser type hint [json] [] e
  | branch {hint first json rest label e branches fallback} (labelled : scalar? first = some label)
      (parsed : tree parser json hint = .ok e) (typed : e.type = type)
      (others : LabelledParse parser type (some type) rest branches fallback) :
      LabelledParse parser type hint (first :: json :: rest) ((label, e) :: branches) fallback

/-- The result of the first label that equals a value, or the fallback. -/
def selected (value : Value W N) (branches : List (Value W N × Expr W N))
    (fallback : Expr W N) : Expr W N :=
  ((branches.find? fun branch => value == branch.1).map Prod.snd).getD fallback

/-- A `match` evaluates as the result that the value of its input selects, and fails as the input
fails. -/
def LabelledMeaning (parser : Parser W N) (hint : Option ValueType) (args : List Json)
    (e : Expr W N) : Prop :=
  ∃ json rest type input branches fallback, args = json :: rest ∧ ParsesAs parser type json input ∧
    LabelledParse parser e.type hint rest branches fallback ∧
    branches ≠ [] ∧ (∀ branch ∈ branches, branch.1.type = type) ∧
    ∀ c, e.evaluate c = do (selected (← input.evaluate c) branches fallback).evaluate c

/-- An `in` evaluates to whether the value of its needle equals some item of a list, which is
written bare or called `literal`. It fails as the needle fails, but for an empty list, in which
nothing is looked for. -/
def MembershipMeaning (parser : Parser W N) (args : List Json) (e : Expr W N) : Prop :=
  ∃ json list type needle items values, args = [json, list] ∧ ParsesAs parser type json needle ∧
    (list = .array items ∨ list = .array [.string "literal", .array items]) ∧
    items.map scalar? = values.map some ∧ (∀ value ∈ values, value.type = type) ∧
    (values = [] → ∀ c, e.evaluate c = .ok (.boolean false)) ∧
    (values ≠ [] → ∀ c, e.evaluate c = do
      let sought ← needle.evaluate c
      return .boolean (values.any fun value => sought == value))

/-- A `between` of three numbers evaluates to whether the first lies between the others, both
included. -/
def BetweenMeaning (parser : Parser W N) (args : List Json) (e : Expr W N) : Prop :=
  ∃ ofX ofLow ofHigh x low high, args = [ofX, ofLow, ofHigh] ∧ ParsesAs parser .number ofX x ∧
    ParsesAs parser .number ofLow low ∧ ParsesAs parser .number ofHigh high ∧
    ∀ c a l h, x.evaluate c = .ok (.number a) → low.evaluate c = .ok (.number l) →
      high.evaluate c = .ok (.number h) →
      e.evaluate c = .ok (.boolean (Scalar.le l a && Scalar.le a h))

/-- Channels evaluate to numbers. -/
def Channels (c : Context W N) (channels : List (Expr W N)) (numbers : List W) : Prop :=
  channels.map (Expr.evaluate c) = numbers.map fun n => .ok (.number n)

/-- A color constructor evaluates to the color of the numbers that its channels evaluate to, with
alpha one where it is left out, and to nothing else. -/
def ColorMeaning (parser : Parser W N) (args : List Json) (e : Expr W N) : Prop :=
  ∃ channels, List.Forall₂ (ParsesAs parser .number) args channels ∧
    ∀ c value, e.evaluate c = .ok value ↔ ∃ red green blue alpha,
      (Channels c channels [red, green, blue, alpha] ∨
        Channels c channels [red, green, blue] ∧ alpha = Scalar.one) ∧
      value = .color (Color.ofChannels red green blue alpha)

/-! ## Calls -/

variable {parser : Parser W N} {hint : Option ValueType}

theorem Argument.parsesAs {json : Json} {operator : String} {type : ValueType} {e : Expr W N}
    (parsed : (Argument.mk json (tree parser json)).parseAs parser operator type = .ok e) :
    ParsesAs parser type json e :=
  Argument.parseAs_eq_ok parsed

/-! ## Labels -/

/-- A comparison with a literal has the value of the other side compared. -/
theorem evaluate_equality (c : Context W N) (x : Expr W N) (value : Value W N) :
    (equality .equal x (.literal value)).evaluate c =
      (do return .boolean ((← x.evaluate c) == value)) := by
  change Operator.apply .equal [x.evaluate c, .ok value] = _
  cases x.evaluate c <;> rfl

/-- Branches that compare an input with labels select by the value of the input. -/
theorem evaluate_labelled (c : Context W N) {input : Expr W N}
    {branches : List (Value W N × Expr W N)} (some : branches ≠ []) (fallback : Expr W N)
    (type : ValueType) :
    (Expr.case (branches.map fun branch => (equality .equal input (.literal branch.1), branch.2))
      fallback type).evaluate c =
      (do (selected (← input.evaluate c) branches fallback).evaluate c) := by
  simp only [Expr.evaluate, Expr.evaluateBranches_eq, List.map_map, Function.comp_def,
    evaluate_equality]
  cases input.evaluate c with
  | error e =>
    -- There is a first comparison, and it fails as the input does.
    obtain ⟨first, rest, rfl⟩ := List.exists_cons_of_ne_nil some
    rfl
  | ok value =>
    clear some
    induction branches with
    | nil => rfl
    | cons first rest ih =>
      simp only [List.map_cons, Expr.choose, selected, List.find?_cons]
      cases equal : value == first.1 with
      | true => simp [Outcome.boolean, equal, bind, Except.bind, pure, Except.pure]
      | false =>
        simpa [Outcome.boolean, equal, bind, Except.bind, pure, Except.pure, selected] using ih

/-- The branches of a `match` are read off its labels and results. -/
theorem labelledBranches_eq_ok {operator : String} {input : Expr W N} {labelType : ValueType}
    (hint : Option ValueType) (args : List Json) {parsed : List (Expr W N × Expr W N)}
    {fallback : Expr W N}
    (ran : labelledBranches parser operator hint input labelType (arguments parser args) =
      .ok (parsed, fallback)) :
    ∃ branches, LabelledParse parser fallback.type hint args branches fallback ∧
      (∀ branch ∈ branches, branch.1.type = labelType) ∧
      parsed = branches.map fun branch =>
        (equality .equal input (.literal branch.1), branch.2) := by
  match args with
  | [] => cases ran
  | [last] =>
    simp only [arguments, labelledBranches, bind_eq_ok, pure_eq_ok] at ran
    obtain ⟨⟨e, common⟩, parsedLast, same⟩ := ran
    cases same
    obtain ⟨parsedFallback, -, -⟩ := Argument.parseBranch_eq_ok parsedLast
    exact ⟨[], .fallback parsedFallback rfl, by simp, rfl⟩
  | first :: result :: rest =>
    simp only [arguments, labelledBranches, bind_eq_ok, pure_eq_ok] at ran
    obtain ⟨value, labelled, ⟨e, common⟩, parsedResult, ⟨others, last⟩, ranRest, same⟩ := ran
    cases same
    obtain ⟨parsedFirst, typed, -⟩ := Argument.parseBranch_eq_ok parsedResult
    obtain ⟨branches, written, labels, rfl⟩ := labelledBranches_eq_ok (some common) rest ranRest
    obtain rfl : last.type = common := labelledBranches_asked ranRest common rfl
    obtain ⟨scalar, labelTyped⟩ := label_eq_ok labelled
    exact ⟨(value, e) :: branches, .branch scalar parsedFirst typed written,
      List.forall_mem_cons.2 ⟨labelTyped, labels⟩, rfl⟩

theorem labelled_means {args : List Json} {e : Expr W N}
    (parsed : tree parser (.array (.string "match" :: args)) hint = .ok e) :
    LabelledMeaning parser hint args e := by
  rw [tree_call (f := .labelled) rfl] at parsed
  obtain ⟨input, first, rest, type, x, branches, fallback, given, enough, -, parsedInput, ran,
    rfl⟩ := labelled_eq_ok parsed
  match args with
  | json :: others =>
    obtain ⟨rfl, rest⟩ := List.cons.inj given
    rw [← rest] at ran
    obtain ⟨branches, written, labels, rfl⟩ := labelledBranches_eq_ok hint others ran
    have some : branches ≠ [] := by
      rintro rfl
      cases written
      simp [arguments] at enough
    exact ⟨json, others, type, x, branches, fallback, rfl, Argument.parsesAs parsedInput, written,
      some, labels, fun c => evaluate_labelled c some fallback _⟩

/-! ## Items -/

theorem haystack_eq_ok {json : Json} {items : List Json} (read : haystack parser json = .ok items) :
    json = .array items ∨ json = .array [.string "literal", .array items] := by
  unfold haystack at read
  split at read <;> cases read
  · exact .inr rfl
  · exact .inl rfl

/-- The values that `in` searches are those of its items, item by item. -/
theorem haystackValues_scalars {items : List Json} {type : ValueType} {values : List (Value W N)}
    (read : haystackValues parser items = .ok (type, values)) :
    items.map scalar? = values.map some := by
  obtain ⟨-, shared, rfl⟩ := haystackValues_items read
  clear read
  induction items with
  | nil => rfl
  | cons item rest ih =>
    obtain ⟨first, others⟩ := List.forall_mem_cons.1 shared
    rw [scalarType?_eq (W := W) (N := N)] at first
    obtain ⟨value, scalar, -⟩ := Option.map_eq_some_iff.1 first
    rw [List.filterMap_cons_some scalar, List.map_cons, List.map_cons, scalar, ih others]

/-- A chain of comparisons with values finds out whether there is an equal one among them. -/
theorem search_equalities (c : Context W N) {needle : Expr W N} {sought : Value W N}
    (found : needle.evaluate c = .ok sought) (values : List (Value W N)) :
    Operator.search .any true
        (values.map fun value => (equality .equal needle (.literal value)).evaluate c) =
      .ok (.boolean (values.any fun value => sought == value)) := by
  induction values with
  | nil => rfl
  | cons value rest ih =>
    have compared : (equality .equal needle (.literal value)).evaluate c =
        .ok (.boolean (sought == value)) := by
      rw [evaluate_equality, found]
      rfl
    rw [List.map_cons, List.any_cons, Operator.search, ih, compared]
    cases sought == value <;> rfl

theorem evaluate_membership (c : Context W N) (needle : Expr W N) {values : List (Value W N)}
    (some : values ≠ []) :
    (membership needle values).evaluate c =
      (do
        let sought ← needle.evaluate c
        return .boolean (values.any fun value => sought == value)) := by
  match values with
  | [value] =>
    simp only [membership, List.map_cons, List.map_nil, evaluate_equality, List.any_cons,
      List.any_nil, Bool.or_false]
  | first :: second :: rest =>
    have chain : (membership needle (first :: second :: rest)).evaluate c =
        Operator.search .any true ((first :: second :: rest).map fun value =>
          (equality .equal needle (.literal value)).evaluate c) := by
      simp only [membership, List.map_cons, Expr.evaluate, Operator.apply, Expr.evaluateAll_eq,
        List.map_map, Function.comp_def]
    cases found : needle.evaluate c with
    | error e =>
      rw [chain, List.map_cons, Operator.search, evaluate_equality, found]
      rfl
    | ok sought =>
      rw [chain, search_equalities c found]
      rfl

theorem membership_means {args : List Json} {e : Expr W N}
    (parsed : tree parser (.array (.string "in" :: args)) hint = .ok e) :
    MembershipMeaning parser args e := by
  rw [tree_call (f := .membership) rfl] at parsed
  match args with
  | [] | [_] | _ :: _ :: _ :: _ => cases parsed
  | [json, list] =>
    simp only [arguments, form, bind_eq_ok, pure_eq_ok] at parsed
    obtain ⟨items, listed, ⟨type, values⟩, read, needle, parsedNeedle, rfl⟩ := parsed
    refine ⟨json, list, type, needle, items, values, rfl, Argument.parsesAs parsedNeedle,
      haystack_eq_ok listed, haystackValues_scalars read, (haystackValues_eq_ok read).2, ?_,
      fun some c => evaluate_membership c needle some⟩
    rintro rfl c
    rfl

/-! ## Bounds -/

theorem between_means {args : List Json} {e : Expr W N}
    (parsed : tree parser (.array (.string "between" :: args)) hint = .ok e) :
    BetweenMeaning parser args e := by
  rw [tree_call (f := .between) rfl] at parsed
  match args with
  | [] | [_] | [_, _] | _ :: _ :: _ :: _ :: _ => cases parsed
  | [ofX, ofLow, ofHigh] =>
    simp only [arguments, form, bind_eq_ok, pure_eq_ok] at parsed
    obtain ⟨x, parsedX, low, parsedLow, high, parsedHigh, rfl⟩ := parsed
    refine ⟨ofX, ofLow, ofHigh, x, low, high, rfl, Argument.parsesAs parsedX,
      Argument.parsesAs parsedLow, Argument.parsesAs parsedHigh, ?_⟩
    intro c a l h atX atLow atHigh
    change Operator.apply .all [Operator.apply .greaterEqual [x.evaluate c, low.evaluate c],
      Operator.apply .lessEqual [x.evaluate c, high.evaluate c]] = _
    rw [atX, atLow, atHigh]
    change Operator.search .all false [.ok (.boolean (Scalar.le l a)),
      .ok (.boolean (Scalar.le a h))] = _
    cases Scalar.le l a <;> cases Scalar.le a h <;> rfl

/-! ## Channels -/

/-- Arguments that were all parsed as one type, one by one. -/
theorem forall₂_parsesAs {operator : String} {type : ValueType} {args : List Json}
    {parsed : List (Expr W N)}
    (ran : (arguments parser args).mapM (·.parseAs parser operator type) = .ok parsed) :
    List.Forall₂ (ParsesAs parser type) args parsed := by
  induction args generalizing parsed with
  | nil =>
    cases ran
    exact .nil
  | cons json rest ih =>
    simp only [arguments, List.mapM_cons, bind_eq_ok, pure_eq_ok] at ran
    obtain ⟨e, first, others, ranRest, rfl⟩ := ran
    exact .cons (Argument.parsesAs first) (ih ranRest)

theorem number_eq_ok {operator : String} {r : Outcome (Value W N)} {n : W} :
    r.number operator = .ok n ↔ r = .ok (.number n) := by
  cases r with
  | error e => simp [Outcome.number]
  | ok value => cases value <;> simp [Outcome.number]

/-- The color operator has a value when all four of its operands are numbers, and only then. -/
theorem apply_color_eq_ok {red green blue alpha : Outcome (Value W N)} {value : Value W N} :
    Operator.apply .color [red, green, blue, alpha] = .ok value ↔ ∃ r g b a,
      (red = .ok (.number r) ∧ green = .ok (.number g) ∧ blue = .ok (.number b) ∧
        alpha = .ok (.number a)) ∧ value = .color (Color.ofChannels r g b a) := by
  change (do
    let a ← alpha.number Operator.color.name
    let r ← red.number Operator.color.name
    let g ← green.number Operator.color.name
    let b ← blue.number Operator.color.name
    return Value.color (Color.ofChannels r g b a)) = .ok value ↔ _
  simp only [bind_eq_ok, number_eq_ok, pure_eq_ok]
  constructor
  · rintro ⟨a, ofAlpha, r, ofRed, g, ofGreen, b, ofBlue, rfl⟩
    exact ⟨r, g, b, a, ⟨ofRed, ofGreen, ofBlue, ofAlpha⟩, rfl⟩
  · rintro ⟨r, g, b, a, ⟨ofRed, ofGreen, ofBlue, ofAlpha⟩, rfl⟩
    exact ⟨a, ofAlpha, r, ofRed, g, ofGreen, b, ofBlue, rfl⟩

/-- Channels of which all are literal numbers are the literals of some numbers. -/
theorem eq_literals {channels : List (Expr W N)} {numbers : List W}
    (read : (channels.mapM fun channel => channel.literal?.bind Value.asNumber?) = some numbers) :
    channels = numbers.map fun n => .literal (.number n) := by
  induction channels generalizing numbers with
  | nil =>
    cases read
    rfl
  | cons channel rest ih =>
    simp only [List.mapM_cons, Option.bind_eq_bind, Option.bind_eq_some_iff, Option.pure_def,
      Option.some.injEq] at read
    obtain ⟨n, ⟨value, ofChannel, number⟩, others, readRest, rfl⟩ := read
    rw [ih readRest, List.map_cons]
    cases channel <;> cases ofChannel
    cases value <;> cases number
    rfl

/-- Folding literal channels to a literal color changes nothing of the value. -/
theorem evaluate_colorOf (c : Context W N) (channels : List (Expr W N)) :
    (colorOf channels).evaluate c =
      Operator.apply .color (channels.map (Expr.evaluate c) ++
        if channels.length = 3 then [.ok (.number Scalar.one)] else []) := by
  simp only [colorOf]
  split
  next color folded =>
    obtain ⟨numbers, read, combined⟩ := Option.bind_eq_some_iff.1 folded
    obtain rfl := eq_literals read
    unfold Color.ofComponents? at combined
    split at combined <;> cases combined <;> rfl
  next =>
    split <;> simp [Expr.evaluate]

theorem exists_channels {α : Type} {channels : List α}
    (count : 3 ≤ channels.length ∧ channels.length ≤ 4) :
    (∃ red green blue, channels = [red, green, blue]) ∨
      ∃ red green blue alpha, channels = [red, green, blue, alpha] := by
  match channels with
  | [red, green, blue] => exact .inl ⟨red, green, blue, rfl⟩
  | [red, green, blue, alpha] => exact .inr ⟨red, green, blue, alpha, rfl⟩
  | [] | [_] | [_, _] | _ :: _ :: _ :: _ :: _ :: _ =>
    simp only [List.length_cons, List.length_nil] at count
    omega

theorem color_means {name : String} (called : Form.ofName? name = some .color) {args : List Json}
    {e : Expr W N} (parsed : tree parser (.array (.string name :: args)) hint = .ok e) :
    ColorMeaning parser args e := by
  rw [tree_call called] at parsed
  simp only [form, bind_eq_ok, pure_eq_ok] at parsed
  obtain ⟨_, checked, channels, ran, rfl⟩ := parsed
  have count := colorArity_admits (check_eq_ok checked)
  rw [← (mapM_eq_ok ran).1] at count
  refine ⟨channels, forall₂_parsesAs ran, fun c value => ?_⟩
  rw [evaluate_colorOf]
  rcases exists_channels count with ⟨red, green, blue, rfl⟩ | ⟨red, green, blue, alpha, rfl⟩
  · refine apply_color_eq_ok.trans ?_
    simp [Channels]
  · refine apply_color_eq_ok.trans ?_
    simp [Channels]

/-! ## All forms -/

/-- Whatever is parsed from a `match`, an `in`, a `between` or a color constructor, with any hint
and any number of arguments, means what the form promises. -/
theorem derived_evaluate {name : String} {args : List Json} {e : Expr W N}
    (parsed : tree parser (.array (.string name :: args)) hint = .ok e) :
    (name = "match" → LabelledMeaning parser hint args e) ∧
      (name = "in" → MembershipMeaning parser args e) ∧
      (name = "between" → BetweenMeaning parser args e) ∧
      (name ∈ ["rgb", "rgba", "color"] → ColorMeaning parser args e) := by
  refine ⟨?labelled, ?membership, ?between, ?color⟩
  case labelled =>
    rintro rfl
    exact labelled_means parsed
  case membership =>
    rintro rfl
    exact membership_means parsed
  case between =>
    rintro rfl
    exact between_means parsed
  case color =>
    intro named
    refine color_means ?_ parsed
    simp only [List.mem_cons, List.not_mem_nil, or_false] at named
    rcases named with rfl | rfl | rfl <;> rfl

/-- A color by the kind of road: two labels with a color each, one of them folded and one not, and
a fallback. -/
def colorByKind : List Json :=
  let number (n : Int) : Json := .number (.integer n)
  [.array [.string "get", .string "kind"],
    .string "motorway", .array [.string "rgb", number 255, number 0, number 0],
    .string "track", .array [.string "rgb", number 0, .array [.string "zoom"], number 0],
    .string "gray"]

/-- Whether a road is of one of two kinds. -/
def mainRoad : List Json :=
  [.array [.string "get", .string "kind"],
    .array [.string "literal", .array [.string "motorway", .string "trunk"]]]

/-- Whether the zoom is one of the middle levels. -/
def middleZoom : List Json :=
  let number (n : Int) : Json := .number (.integer n)
  [.array [.string "zoom"], number 5, number 12]

/-- A red that is written out, and so is folded. -/
def plainRed : List Json :=
  let number (n : Int) : Json := .number (.integer n)
  [number 255, number 0, number 0]

/-- A green that the number of lanes tells, with an alpha of its own. -/
def greenByLanes : List Json :=
  let number (n : Int) : Json := .number (.integer n)
  [number 0, .array [.string "get", .string "lanes"], number 0, number 1]

/-- A parser of styles that declare nothing. -/
def plainParser : Parser Double Single := .start .empty

theorem roadForms_mean :
    (∃ e, tree plainParser (.array (.string "match" :: colorByKind)) (some .color) = .ok e ∧
      LabelledMeaning plainParser (some .color) colorByKind e) ∧
    (∃ e, tree plainParser (.array (.string "in" :: mainRoad)) none = .ok e ∧
      MembershipMeaning plainParser mainRoad e) ∧
    (∃ e, tree plainParser (.array (.string "between" :: middleZoom)) none = .ok e ∧
      BetweenMeaning plainParser middleZoom e) ∧
    (∃ e, tree plainParser (.array (.string "rgb" :: plainRed)) none = .ok e ∧
      ColorMeaning plainParser plainRed e) ∧
    ∃ e, tree plainParser (.array (.string "color" :: greenByLanes)) none = .ok e ∧
      ColorMeaning plainParser greenByLanes e := by
  have parses (json : Json) (hint : Option ValueType)
      (accepted : (tree plainParser json hint).isOk = true) :
      ∃ e, tree plainParser json hint = .ok e := by
    cases parsed : tree plainParser json hint with
    | ok e => exact ⟨e, rfl⟩
    | error e => simp [parsed, Except.isOk, Except.toBool] at accepted
  refine ⟨?labelled, ?membership, ?between, ?folded, ?composed⟩
  case labelled =>
    obtain ⟨e, parsed⟩ := parses (.array (.string "match" :: colorByKind)) (some .color) rfl
    exact ⟨e, parsed, (derived_evaluate parsed).1 rfl⟩
  case membership =>
    obtain ⟨e, parsed⟩ := parses (.array (.string "in" :: mainRoad)) none rfl
    exact ⟨e, parsed, (derived_evaluate parsed).2.1 rfl⟩
  case between =>
    obtain ⟨e, parsed⟩ := parses (.array (.string "between" :: middleZoom)) none rfl
    exact ⟨e, parsed, (derived_evaluate parsed).2.2.1 rfl⟩
  case folded =>
    obtain ⟨e, parsed⟩ := parses (.array (.string "rgb" :: plainRed)) none rfl
    exact ⟨e, parsed, (derived_evaluate parsed).2.2.2 (by decide)⟩
  case composed =>
    obtain ⟨e, parsed⟩ := parses (.array (.string "color" :: greenByLanes)) none rfl
    exact ⟨e, parsed, (derived_evaluate parsed).2.2.2 (by decide)⟩

end Parse

end MapStyle
