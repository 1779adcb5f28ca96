import Mathlib.Data.List.Forall2
import MapStyle.Expr.Parse

/-!
# What parsing depends on

Of its declarations a parser sees the schema, the callbacks and the types of the variables, and of
the property that it is at it makes one use: whatever it refuses, however deep in a value, it
refuses in the name of that property. So two parsers with the same declarations make the same of
every tree, wherever they are: the same expression, or the same fault, each in the name of its own
property (`Same`). This is shown of every check and of every form over arguments of which it holds,
and so of all trees.
-/

set_option linter.unusedSectionVars false

namespace MapStyle

variable {W N : Type}

/-- Declarations that differ in the values of variables only. -/
structure Environment.Alike (first second : Environment W N) : Prop where
  schema : first.schema = second.schema
  externals : first.externals = second.externals
  types : ∀ name, (first.bindings.get? name).map Value.type =
    (second.bindings.get? name).map Value.type

theorem Environment.Alike.refl (env : Environment W N) : env.Alike env :=
  ⟨rfl, rfl, fun _ => rfl⟩

namespace Parse

variable {α β : Type} {p q : Parser W N}

/-- What two parsers come to is the same: one expression, or one fault, which each of them blames
on the property that it is at. -/
inductive Same (p q : Parser W N) {α : Type} : Parsed α → Parsed α → Prop
  | ok (a : α) : Same p q (.ok a) (.ok a)
  | error (fault : Fault) :
      Same p q (.error (.expression p.property fault)) (.error (.expression q.property fault))

namespace Same

theorem bind {left right : Parsed α} {next next' : α → Parsed β} (same : Same p q left right)
    (afterwards : ∀ a, Same p q (next a) (next' a)) :
    Same p q (left >>= next) (right >>= next') := by
  cases same with
  | ok a => exact afterwards a
  | error fault => exact .error fault

theorem accepted {left right : Parsed α} (same : Same p q left right) {a : α}
    (parsed : left = .ok a) : right = .ok a := by
  cases same with
  | ok a => exact parsed
  | error fault => cases parsed

theorem blamed {outcome outcome' : Parsed α} (same : Same p q outcome outcome') {e : CompileError}
    (failed : outcome = .error e) : ∃ fault, e = .expression p.property fault := by
  cases same with
  | ok a => cases failed
  | error fault =>
    cases failed
    exact ⟨fault, rfl⟩

/-- At the same property the outcomes are equal. -/
theorem eq {left right : Parsed α} (same : Same p q left right)
    (property : p.property = q.property) : left = right := by
  cases same with
  | ok a => rfl
  | error fault => rw [property]

end Same

/-- An argument that is the same for two parsers. -/
structure Argument.Same (p q : Parser W N) (left right : Argument W N) : Prop where
  json : left.json = right.json
  parse : ∀ hint, Parse.Same p q (left.parse hint) (right.parse hint)

variable [Scalar W] [Scalar N] [Precision W N]

/-! ## Checks and leaves -/

section Leaves

variable (operator : String) (e : Expr W N)

theorem checkArity_same (arity : Arity) (count : Nat) :
    Same p q (checkArity p arity operator count) (checkArity q arity operator count) := by
  unfold checkArity
  split
  · exact .ok _
  · exact .error _

theorem expect_same (expected : ValueType) :
    Same p q (expect p operator expected e) (expect q operator expected e) := by
  unfold expect
  split
  · exact .ok _
  · exact .error _

theorem unify_same (type : Option ValueType) :
    Same p q (unify p operator type e) (unify q operator type e) := by
  cases type with
  | none => exact .ok _
  | some expected => exact (expect_same operator e expected).bind fun _ => .ok _

theorem nameArgument_same (json : Json) :
    Same p q (nameArgument p operator json) (nameArgument q operator json) := by
  cases json with
  | string name => exact .ok _
  | _ => exact .error _

variable (hint : Option ValueType) (name : String)

theorem ofText_same (s : String) :
    Same p q (ofText p s hint) (ofText q s hint) := by
  unfold ofText
  split
  · cases Color.ofText? W s with
    | some c => exact .ok _
    | none => exact .error _
  · exact .ok _

theorem ofNumbers_same (items : List Json) :
    Same p q (ofNumbers p items hint) (ofNumbers q items hint) := by
  unfold ofNumbers
  cases Json.numbers? (α := W) items with
  | none => exact .error _
  | some numbers =>
    dsimp only
    split
    · cases Color.ofComponents? numbers with
      | some c => exact .ok _
      | none => exact .error _
    · exact .ok _

section Declarations

variable (alike : p.environment.Alike q.environment)

include alike

theorem ofProperty_same : Same p q (ofProperty p name hint) (ofProperty q name hint) := by
  unfold ofProperty
  rw [alike.schema]
  cases q.environment.schema with
  | none => exact .ok _
  | some schema =>
    dsimp only
    cases schema.get? name with
    | none => exact .error _
    | some declaration =>
      dsimp only
      split <;> exact .ok _

theorem ofVariable_same : Same p q (ofVariable p name) (ofVariable q name) := by
  have types := alike.types name
  unfold ofVariable
  cases found : p.environment.bindings.get? name with
  | none =>
    rw [found, Option.map_none, eq_comm, Option.map_eq_none_iff] at types
    rw [types]
    exact .error _
  | some value =>
    rw [found, Option.map_some, eq_comm, Option.map_eq_some_iff] at types
    obtain ⟨value', found', sameType⟩ := types
    rw [found']
    dsimp only
    rw [sameType]
    exact .ok _

theorem ofExternal_same : Same p q (ofExternal p name) (ofExternal q name) := by
  unfold ofExternal
  rw [alike.externals]
  cases q.environment.externals.lookup? name with
  | none => exact .error _
  | some entry => exact .ok _

end Declarations

theorem curveOf_same (json : Json) :
    Same p q (curveOf p json) (curveOf q json) := by
  unfold curveOf
  split
  · exact .ok _
  next base =>
    cases base.number? (α := W) with
    | some base => exact .ok _
    | none => exact .error _
  · exact .error _

theorem ascend_same (previous : Option W) (stop : W) :
    Same p q (ascend p previous stop) (ascend q previous stop) := by
  cases previous with
  | none => exact .ok _
  | some previous =>
    simp only [ascend]
    split
    · exact .error _
    · exact .ok _

theorem haystack_same (json : Json) :
    Same p q (haystack p json) (haystack q json) := by
  unfold haystack
  split
  · exact .ok _
  · exact .error _
  · exact .ok _
  · exact .error _

theorem haystackType_same (items : List Json) :
    Same p q (haystackType p items) (haystackType q items) := by
  unfold haystackType
  split
  · exact .ok _
  · split
    · exact .ok _
    · exact .ok _
    · exact .error _

theorem haystackValues_same (items : List Json) :
    Same p q (haystackValues p items) (haystackValues q items) := by
  refine (haystackType_same items).bind fun type => ?_
  dsimp only
  split
  · exact .error _
  · exact .ok _

theorem label_same (type : ValueType) (json : Json) :
    Same p q (label p type json) (label q type json) := by
  unfold label
  cases scalar? (W := W) (N := N) json with
  | none => exact .error _
  | some value =>
    dsimp only
    split
    · exact .ok _
    · exact .error _

theorem interpolation_same (curve : Curve W) (stops : List (W × Expr W N)) :
    Same p q (interpolation p operator curve e stops) (interpolation q operator curve e stops) := by
  cases stops with
  | nil => exact .error _
  | cons stop rest =>
    simp only [interpolation]
    split
    · exact .ok _
    · exact .error _

theorem arityFault_same (expected : String) {args args' : List (Argument W N)}
    (count : args.length = args'.length) :
    Same p q (arityFault p name expected args) (arityFault q name expected args') := by
  rw [arityFault, arityFault, count]
  exact .error _

end Leaves

/-! ## Arguments -/

namespace Argument.Same

variable {left right : Argument W N}

theorem parseAs (same : left.Same p q right) (operator : String)
    (type : ValueType) :
    Parse.Same p q (left.parseAs p operator type) (right.parseAs q operator type) :=
  (same.parse _).bind fun e => (expect_same operator e type).bind fun _ => .ok _

theorem parseBranch (same : left.Same p q right) (operator : String)
    (type : Option ValueType) :
    Parse.Same p q (left.parseBranch p operator type) (right.parseBranch q operator type) :=
  (same.parse _).bind fun e => (unify_same operator e type).bind fun _ => .ok _

end Argument.Same

/-- Arguments that are the same, one by one. -/
abbrev Arguments.Same (p q : Parser W N) (left right : List (Argument W N)) : Prop :=
  List.Forall₂ (Argument.Same p q) left right

section Calls

variable {args args' : List (Argument W N)}

theorem mapM_parseAs_same (same : Arguments.Same p q args args')
    (operator : String) (type : ValueType) :
    Same p q (args.mapM (·.parseAs p operator type)) (args'.mapM (·.parseAs q operator type)) := by
  induction same with
  | nil => exact .ok _
  | cons argument rest ih =>
    rw [List.mapM_cons, List.mapM_cons]
    exact (argument.parseAs operator type).bind fun e => ih.bind fun others => .ok _

theorem branches_same (operator : String) {args args' : List (Argument W N)}
    (type : Option ValueType) (same : Arguments.Same p q args args') :
    Same p q (branches p operator type args) (branches q operator type args') := by
  match args, args', same with
  | [], [], .nil => exact .error _
  | [_], [_], .cons fallback .nil =>
    exact (fallback.parseBranch operator type).bind fun _ => .ok _
  | _ :: _ :: _, _ :: _ :: _, .cons condition (.cons result rest) =>
    simp only [branches]
    refine (condition.parseAs operator .boolean).bind fun _ => ?_
    refine (result.parseBranch operator type).bind fun (_, common) => ?_
    exact (branches_same operator (some common) rest).bind fun _ => .ok _

theorem labelledBranches_same (operator : String) (input : Expr W N) (labelType : ValueType)
    {args args' : List (Argument W N)} (type : Option ValueType)
    (same : Arguments.Same p q args args') :
    Same p q (labelledBranches p operator type input labelType args)
      (labelledBranches q operator type input labelType args') := by
  match args, args', same with
  | [], [], .nil => exact .error _
  | [_], [_], .cons fallback .nil =>
    exact (fallback.parseBranch operator type).bind fun _ => .ok _
  | _ :: _ :: _, _ :: _ :: _, .cons label (.cons result rest) =>
    simp only [labelledBranches, label.json]
    refine (label_same labelType _).bind fun _ => ?_
    refine (result.parseBranch operator type).bind fun (_, common) => ?_
    exact (labelledBranches_same operator input labelType (some common) rest).bind
      fun _ => .ok _

theorem stops_same (operator : String) {args args' : List (Argument W N)}
    (type : Option ValueType) (previous : Option W)
    (same : Arguments.Same p q args args') :
    Same p q (stops p operator type previous args) (stops q operator type previous args') := by
  match args, args', same with
  | [], [], .nil => exact .ok _
  | [_], [_], .cons _ .nil => exact .ok _
  | _ :: _ :: _, stop' :: _ :: _, .cons stop (.cons output rest) =>
    simp only [stops, stop.json]
    cases stop'.json.number? (α := W) with
    | none => exact .error _
    | some n =>
      refine (ascend_same previous n).bind fun _ => ?_
      refine (output.parseBranch operator type).bind fun (_, common) => ?_
      exact (stops_same operator (some common) (some n) rest).bind fun _ => .ok _

/-- Of the same arguments a form makes the same. -/
theorem form_same (alike : p.environment.Alike q.environment) (hint : Option ValueType)
    (name : String) (f : Form) (same : Arguments.Same p q args args') :
    Same p q (form p hint name args f) (form q hint name args' f) := by
  have count : args.length = args'.length := same.length_eq
  have fault (expected : String) : Same p q (arityFault p name expected args)
      (arityFault q name expected args') := arityFault_same name expected count
  cases f with
  | property =>
    match args, args', same with
    | [], [], .nil | _ :: _ :: _, _ :: _ :: _, .cons _ (.cons _ _) => exact fault _
    | [_], [_], .cons argument .nil =>
      simp only [form, argument.json]
      exact (nameArgument_same name _).bind fun property => ofProperty_same hint property alike
  | styleVariable =>
    match args, args', same with
    | [], [], .nil | _ :: _ :: _, _ :: _ :: _, .cons _ (.cons _ _) => exact fault _
    | [_], [_], .cons argument .nil =>
      simp only [form, argument.json]
      exact (nameArgument_same name _).bind fun input => ofVariable_same input alike
  | external =>
    match args, args', same with
    | [], [], .nil | _ :: _ :: _, _ :: _ :: _, .cons _ (.cons _ _) => exact fault _
    | [_], [_], .cons argument .nil =>
      simp only [form, argument.json]
      exact (nameArgument_same name _).bind fun callback => ofExternal_same callback alike
  | input source =>
    simp only [form, count]
    exact (checkArity_same name _ _).bind fun _ => .ok _
  | literal =>
    match args, args', same with
    | [], [], .nil | _ :: _ :: _, _ :: _ :: _, .cons _ (.cons _ _) => exact fault _
    | [_], [_], .cons argument .nil =>
      simp only [form, argument.json]
      split
      · exact ofNumbers_same hint _
      · exact argument.parse hint
  | case =>
    simp only [form, count]
    split
    · exact fault _
    · exact (branches_same name hint same).bind fun _ => .ok _
  | labelled =>
    match args, args', same with
    | [], [], .nil | [_], [_], .cons _ .nil => exact fault _
    | _ :: _ :: _, _ :: _ :: _, .cons input (.cons first' rest) =>
      simp only [form, count, first'.json]
      split
      · exact fault _
      · split
        · exact .error _
        next type scalar =>
          refine (input.parseAs name type).bind fun x => ?_
          exact (labelledBranches_same name x type hint (.cons first' rest)).bind fun _ => .ok _
  | interpolate =>
    match args, args', same with
    | [], [], .nil | [_], [_], .cons _ .nil => exact fault _
    | _ :: _ :: _, _ :: _ :: _, .cons curve (.cons input rest) =>
      simp only [form, count, curve.json]
      split
      · exact fault _
      · refine (curveOf_same _).bind fun blend => ?_
        refine (input.parseAs name .number).bind fun x => ?_
        exact (stops_same name hint none rest).bind fun stops =>
          interpolation_same name x blend stops
  | between =>
    match args, args', same with
    | [], [], .nil | [_], [_], .cons _ .nil | [_, _], [_, _], .cons _ (.cons _ .nil)
    | _ :: _ :: _ :: _ :: _, _ :: _ :: _ :: _ :: _, .cons _ (.cons _ (.cons _ (.cons _ _))) =>
      exact fault _
    | [_, _, _], [_, _, _], .cons x (.cons low (.cons high .nil)) =>
      refine (x.parseAs name .number).bind fun _ => ?_
      refine (low.parseAs name .number).bind fun _ => ?_
      exact (high.parseAs name .number).bind fun _ => .ok _
  | membership =>
    match args, args', same with
    | [], [], .nil | [_], [_], .cons _ .nil
    | _ :: _ :: _ :: _, _ :: _ :: _ :: _, .cons _ (.cons _ (.cons _ _)) => exact fault _
    | [_, _], [_, _], .cons needle (.cons items .nil) =>
      simp only [form, items.json]
      refine (haystack_same _).bind fun listed => ?_
      refine (haystackValues_same listed).bind fun (type, values) => ?_
      exact (needle.parseAs name type).bind fun _ => .ok _
  | color =>
    simp only [form, count]
    refine (checkArity_same name _ _).bind fun _ => ?_
    exact (mapM_parseAs_same same name .number).bind fun _ => .ok _
  | equality op =>
    match args, args', same with
    | [], [], .nil | [_], [_], .cons _ .nil
    | _ :: _ :: _ :: _, _ :: _ :: _ :: _, .cons _ (.cons _ (.cons _ _)) => exact fault _
    | [_, _], [_, _], .cons left (.cons right .nil) =>
      simp only [form, left.json, right.json]
      refine (left.parse _).bind fun x => (right.parse _).bind fun y => ?_
      split
      · exact .error _
      · exact (expect_same name y x.type).bind fun _ => .ok _
  | operator op =>
    simp only [form, count]
    refine (checkArity_same name _ _).bind fun _ => ?_
    exact (mapM_parseAs_same same name op.signature.argument).bind fun _ => .ok _

end Calls

/-! ## Trees -/

section Trees

variable (alike : p.environment.Alike q.environment)

include alike

mutual

/-- Two parsers with like declarations make the same of a tree. -/
theorem tree_same (json : Json) (hint : Option ValueType) :
    Same p q (tree p json hint) (tree q json hint) := by
  match json with
  | .bool _ | .number _ => exact .ok _
  | .null | .object _ | .array [] => exact .error _
  | .string s => exact ofText_same hint s
  | .array (.string name :: args) =>
    rw [tree, tree, call, call]
    cases Form.ofName? name with
    | none => exact .error _
    | some f => exact form_same alike hint name f (arguments_same args)
  | .array (.array _ :: _) | .array (.object _ :: _) | .array (.number _ :: _)
  | .array (.bool _ :: _) | .array (.null :: _) =>
    rw [tree, tree]
    · exact ofNumbers_same hint _
    all_goals simp

theorem arguments_same (items : List Json) :
    Arguments.Same p q (arguments p items) (arguments q items) := by
  match items with
  | [] => exact .nil
  | json :: rest => exact .cons ⟨rfl, tree_same json⟩ (arguments_same rest)

end

/-- What one parser accepts, the other does. -/
theorem tree_accepted {json : Json} {hint : Option ValueType} {e : Expr W N}
    (parsed : tree p json hint = .ok e) : tree q json hint = .ok e :=
  (tree_same alike json hint).accepted parsed

end Trees

/-- Whatever a parser refuses, it refuses in the name of the property that it is at. -/
theorem tree_blamed {json : Json} {hint : Option ValueType} {e : CompileError}
    (failed : tree p json hint = .error e) : ∃ fault, e = .expression p.property fault :=
  (tree_same (.refl p.environment) json hint).blamed failed

/-! ## Values -/

variable {name : String} {expected : ValueType} {json : Json}

/-- Two parsers with like declarations make the same of the value of a property, wherever they have
been before: they come to the property, and stay at it throughout the value. -/
theorem value_same (alike : p.environment.Alike q.environment) (name : String)
    (expected : ValueType) (json : Json) :
    Same { p with property := name } { q with property := name } (value p name expected json).1
      (value q name expected json).1 := by
  have argument : (Argument.mk json (tree { p with property := name } json)).Same
      { p with property := name } { q with property := name }
      (.mk json (tree { q with property := name } json)) :=
    ⟨rfl, tree_same (p := { p with property := name }) (q := { q with property := name }) alike
      json⟩
  exact argument.parseAs "value" expected

/-- The value of a property is refused in the name of this property, whatever the parser has been
at before. -/
theorem value_blamed {e : CompileError} (failed : (value p name expected json).1 = .error e) :
    ∃ fault, e = .expression name fault :=
  (value_same (.refl p.environment) name expected json).blamed failed

/-- Under like declarations the value of a property is parsed to the same. -/
theorem property_congr {env other : Environment W N} (alike : env.Alike other) (name : String)
    (expected : ValueType) (json : Json) :
    property env name expected json = property other name expected json :=
  (value_same (p := .start env) (q := .start other) alike name expected json).eq rfl

end Parse

end MapStyle
