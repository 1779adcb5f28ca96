import MapStyle.Proofs.Dictionary
import MapStyle.Proofs.Expr.Typing
import MapStyle.Proofs.Number.Order
import MapStyle.Proofs.Outcome

/-!
# The parser makes well-typed expressions

Whatever the parser accepts keeps the rules of typing, form by form: each lemma takes the
arguments of a call to be sound and shows the call to be. The hints that go down to the
arguments do not enter, because every argument is checked after it has been parsed. The recursion
of the parser is met once, in `TreeInduction`.
-/

set_option linter.unusedSectionVars false

namespace MapStyle.Parse

variable {W N : Type} [Scalar W] [Scalar N] [Precision W N] {env : Environment W N}
  {parser : Parser W N}

/-- Whatever the argument is parsed to, with any hint, is well-typed. -/
def Argument.Sound (env : Environment W N) (argument : Argument W N) : Prop :=
  ∀ hint e, argument.parse hint = .ok e → e.WellTyped env

/-! ## Checks and leaves -/

theorem expect_eq_ok {operator : String} {expected : ValueType} {e : Expr W N} {checked : Unit} :
    expect parser operator expected e = .ok checked ↔ e.type = expected := by
  unfold expect
  split <;> simp_all

theorem Argument.parseAs_eq_ok {argument : Argument W N} {operator : String} {type : ValueType}
    {e : Expr W N} (parsed : argument.parseAs parser operator type = .ok e) :
    argument.parse (some type) = .ok e ∧ e.type = type := by
  simp only [parseAs, bind_eq_ok, expect_eq_ok, pure_eq_ok] at parsed
  obtain ⟨e, parsed, checked, typed, rfl⟩ := parsed
  exact ⟨parsed, typed⟩

theorem Argument.Sound.parseAs {argument : Argument W N} (sound : argument.Sound env)
    {operator : String} {type : ValueType} {e : Expr W N}
    (parsed : argument.parseAs parser operator type = .ok e) : e.WellTyped env ∧ e.type = type := by
  obtain ⟨parsed, typed⟩ := Argument.parseAs_eq_ok parsed
  exact ⟨sound _ _ parsed, typed⟩

theorem unify_eq_ok {operator : String} {type : Option ValueType} {e : Expr W N}
    {result : ValueType} (unified : unify parser operator type e = .ok result) :
    e.type = result ∧ ∀ expected, type = some expected → result = expected := by
  cases type with
  | none =>
    cases unified
    simp
  | some expected =>
    simp only [unify, bind_eq_ok, expect_eq_ok, pure_eq_ok] at unified
    obtain ⟨checked, typed, rfl⟩ := unified
    simp [typed]

theorem Argument.parseBranch_eq_ok {argument : Argument W N} {operator : String}
    {type : Option ValueType} {e : Expr W N} {result : ValueType}
    (parsed : argument.parseBranch parser operator type = .ok (e, result)) :
    argument.parse type = .ok e ∧ e.type = result ∧
      ∀ expected, type = some expected → result = expected := by
  simp only [parseBranch, bind_eq_ok, pure_eq_ok] at parsed
  obtain ⟨e, parsed, result, unified, same⟩ := parsed
  cases same
  exact ⟨parsed, unify_eq_ok unified⟩

theorem Argument.Sound.parseBranch {argument : Argument W N} (sound : argument.Sound env)
    {operator : String} {type : Option ValueType} {e : Expr W N} {result : ValueType}
    (parsed : argument.parseBranch parser operator type = .ok (e, result)) :
    e.WellTyped env ∧ e.type = result ∧ ∀ expected, type = some expected → result = expected := by
  obtain ⟨parsed, typed⟩ := Argument.parseBranch_eq_ok parsed
  exact ⟨sound _ _ parsed, typed⟩

theorem ofText_wellTyped {s : String} {hint : Option ValueType} {e : Expr W N}
    (parsed : ofText parser s hint = .ok e) : e.WellTyped env := by
  unfold ofText at parsed
  split at parsed
  · split at parsed
    · cases parsed
      exact Expr.wellTyped_literal _
    · cases parsed
  · cases parsed
    exact Expr.wellTyped_literal _

theorem ofNumbers_wellTyped {items : List Json} {hint : Option ValueType} {e : Expr W N}
    (parsed : ofNumbers parser items hint = .ok e) : e.WellTyped env := by
  unfold ofNumbers at parsed
  split at parsed
  · cases parsed
  split at parsed
  · split at parsed
    · cases parsed
      exact Expr.wellTyped_literal _
    · cases parsed
  · cases parsed
    exact Expr.wellTyped_literal _

theorem ofProperty_wellTyped {name : String} {hint : Option ValueType} {e : Expr W N}
    (parsed : ofProperty parser name hint = .ok e) : e.WellTyped parser.environment := by
  unfold ofProperty at parsed
  split at parsed
  next without =>
    cases parsed
    simp [Expr.Respects, without]
  next schema declared =>
    split at parsed
    · cases parsed
    next declaration found =>
      split at parsed
      next color =>
        cases parsed
        simp [Expr.Respects, declared, found, color.1]
      next =>
        cases parsed
        simp [Expr.Respects, declared, found]

theorem ofVariable_wellTyped {name : String} {e : Expr W N}
    (parsed : ofVariable parser name = .ok e) : e.WellTyped parser.environment := by
  unfold ofVariable at parsed
  split at parsed
  · cases parsed
  next value found =>
    cases parsed
    simp [Expr.Respects, FrameInput.type?, found]

theorem lookup?_eq_some {registry : Registry W N} {name : String} {id : Nat} {type : ValueType}
    (found : registry.lookup? name = some (id, type)) :
    ∃ entry, registry.get? id = some entry ∧ entry.type = type := by
  simp only [Registry.lookup?, Option.bind_eq_bind, Option.bind_eq_some_iff, Option.pure_def,
    Option.some.injEq, Prod.mk.injEq] at found
  obtain ⟨_, -, entry, registered, rfl, typed⟩ := found
  exact ⟨entry, registered, typed⟩

theorem ofExternal_wellTyped {name : String} {e : Expr W N}
    (parsed : ofExternal parser name = .ok e) : e.WellTyped parser.environment := by
  unfold ofExternal at parsed
  split at parsed
  · cases parsed
  next id type found =>
    cases parsed
    simpa [Expr.Respects] using lookup?_eq_some found

/-! ## Forms without a node of their own -/

theorem equality_wellTyped {op : Operator} (equality : op = .equal ∨ op = .notEqual)
    {left right : Expr W N} (ofLeft : left.WellTyped env) (ofRight : right.WellTyped env)
    (comparable : left.type ≠ .numberArray) (same : right.type = left.type) :
    (Parse.equality op left right).WellTyped env := by
  refine Expr.wellTyped_operator_iff.2 ⟨⟨?_, ?_, ?_⟩, by simp [ofLeft, ofRight]⟩
  · rcases equality with rfl | rfl <;> rfl
  · rcases equality with rfl | rfl <;> rfl
  · rw [if_pos equality]
    exact ⟨left.type, comparable, by simp [same]⟩

/-- A node of an operator over operands of its signature. -/
theorem operator_wellTyped (op : Operator) {args : List (Expr W N)}
    (admitted : op.signature.arity.admits args.length = true)
    (ofArgs : ∀ arg ∈ args, arg.WellTyped env ∧ arg.type = op.signature.argument) :
    (Expr.operator op args op.signature.result).WellTyped env := by
  refine Expr.wellTyped_operator_iff.2 ⟨⟨rfl, by simpa using admitted, ?_⟩, fun arg member =>
    (ofArgs arg member).1⟩
  have types : ∀ type ∈ args.map Expr.type, type = op.signature.argument := by
    rw [List.forall_mem_map]
    exact fun arg member => (ofArgs arg member).2
  split
  · exact ⟨op.signature.argument, by cases op <;> simp [Operator.signature], types⟩
  · exact types

theorem between_wellTyped {x low high : Expr W N}
    (ofX : x.WellTyped env ∧ x.type = .number) (ofLow : low.WellTyped env ∧ low.type = .number)
    (ofHigh : high.WellTyped env ∧ high.type = .number) :
    (between x low high).WellTyped env := by
  have below : (Expr.operator .greaterEqual [x, low] .boolean).WellTyped env :=
    operator_wellTyped .greaterEqual rfl (by simp [ofX, ofLow, Operator.signature])
  have above : (Expr.operator .lessEqual [x, high] .boolean).WellTyped env :=
    operator_wellTyped .lessEqual rfl (by simp [ofX, ofHigh, Operator.signature])
  exact operator_wellTyped .all rfl
    (by simp [below, above, Operator.signature, Expr.type])

/-- What the type of a scalar says of its value. -/
theorem scalarType?_eq (json : Json) :
    scalarType? json = (scalar? json : Option (Value W N)).map Value.type := by
  cases json <;> rfl

theorem haystackType_eq_ok {items : List Json} {type : ValueType}
    (told : haystackType parser items = .ok type) : type ≠ .numberArray := by
  unfold haystackType at told
  split at told
  next =>
    cases told
    simp
  next =>
    split at told <;> cases told <;> simp

/-- The items `in` searches are scalars of one type, which is that of numbers or of strings. -/
theorem haystackValues_items {items : List Json} {type : ValueType} {values : List (Value W N)}
    (read : haystackValues parser items = .ok (type, values)) :
    type ≠ .numberArray ∧ (∀ item ∈ items, scalarType? item = some type) ∧
      values = items.filterMap scalar? := by
  obtain ⟨common, told, checked⟩ := bind_eq_ok.1 read
  split at checked
  next => cases checked
  next shared =>
    cases checked
    exact ⟨haystackType_eq_ok told, by simpa using shared, rfl⟩

/-- So are their values. -/
theorem haystackValues_eq_ok {items : List Json} {type : ValueType} {values : List (Value W N)}
    (read : haystackValues parser items = .ok (type, values)) :
    type ≠ .numberArray ∧ ∀ value ∈ values, value.type = type := by
  obtain ⟨other, shared, rfl⟩ := haystackValues_items read
  refine ⟨other, fun value member => ?_⟩
  obtain ⟨item, inItems, scalar⟩ := List.mem_filterMap.1 member
  have typed := shared item inItems
  rw [scalarType?_eq (W := W) (N := N), scalar] at typed
  exact Option.some.inj typed

theorem membership_wellTyped {needle : Expr W N} {values : List (Value W N)}
    (ofNeedle : needle.WellTyped env) (comparable : needle.type ≠ .numberArray)
    (same : ∀ value ∈ values, value.type = needle.type) :
    (membership needle values).WellTyped env := by
  have comparisons : ∀ e ∈ values.map fun value => Parse.equality .equal needle (.literal value),
      e.WellTyped env ∧ e.type = .boolean := by
    rw [List.forall_mem_map]
    intro value member
    refine ⟨?_, rfl⟩
    exact equality_wellTyped (.inl rfl) ofNeedle (by simp) comparable (same value member)
  match values with
  | [] => exact Expr.wellTyped_literal _
  | [value] => exact (comparisons _ List.mem_cons_self).1
  | first :: second :: rest =>
    refine operator_wellTyped .any ?_ comparisons
    simp [Operator.signature, Arity.atLeast, Arity.admits_iff]

theorem label_eq_ok {type : ValueType} {json : Json} {value : Value W N}
    (read : label parser type json = .ok value) :
    scalar? json = some value ∧ value.type = type := by
  unfold label at read
  split at read
  · cases read
  split at read
  next scalar typed =>
    cases read
    exact ⟨scalar, typed⟩
  next => cases read

theorem colorOf_wellTyped {channels : List (Expr W N)}
    (count : 3 ≤ channels.length ∧ channels.length ≤ 4)
    (ofChannels : ∀ channel ∈ channels, channel.WellTyped env ∧ channel.type = .number) :
    (colorOf channels).WellTyped env := by
  simp only [colorOf]
  split
  · exact Expr.wellTyped_literal _
  refine operator_wellTyped .color ?_ ?_
  · split <;> simp [Operator.signature, Arity.admits_iff] <;> omega
  · intro channel member
    rcases List.mem_append.1 member with given | added
    · exact ofChannels channel given
    · split at added
      · rw [List.mem_singleton] at added
        subst added
        exact ⟨Expr.wellTyped_literal _, rfl⟩
      · cases added

/-! ## Lists of branches and stops -/

/-- The fallback has the type that is asked for, if one is. -/
theorem branches_asked {operator : String} {type : Option ValueType} {args : List (Argument W N)}
    {parsed : List (Expr W N × Expr W N)} {fallback : Expr W N}
    (ran : branches parser operator type args = .ok (parsed, fallback)) :
    ∀ expected, type = some expected → fallback.type = expected := by
  fun_induction branches parser operator type args generalizing parsed with
  | case1 type condition result rest ih =>
    simp only [bind_eq_ok, pure_eq_ok] at ran
    obtain ⟨_, -, ⟨r, common⟩, parsedResult, ⟨others, last⟩, ranRest, same⟩ := ran
    cases same
    obtain ⟨-, -, asked⟩ := Argument.parseBranch_eq_ok parsedResult
    exact fun expected wanted => (ih common ranRest common rfl).trans (asked expected wanted)
  | case2 type last =>
    simp only [bind_eq_ok, pure_eq_ok] at ran
    obtain ⟨⟨e, common⟩, parsedLast, same⟩ := ran
    cases same
    obtain ⟨-, typed, asked⟩ := Argument.parseBranch_eq_ok parsedLast
    exact fun expected wanted => typed.trans (asked expected wanted)
  | case3 => cases ran

theorem labelledBranches_asked {operator : String} {type : Option ValueType} {input : Expr W N}
    {labelType : ValueType} {args : List (Argument W N)} {parsed : List (Expr W N × Expr W N)}
    {fallback : Expr W N}
    (ran : labelledBranches parser operator type input labelType args = .ok (parsed, fallback)) :
    ∀ expected, type = some expected → fallback.type = expected := by
  fun_induction labelledBranches parser operator type input labelType args generalizing parsed with
  | case1 type first result rest ih =>
    simp only [bind_eq_ok, pure_eq_ok] at ran
    obtain ⟨_, -, ⟨r, common⟩, parsedResult, ⟨others, last⟩, ranRest, same⟩ := ran
    cases same
    obtain ⟨-, -, asked⟩ := Argument.parseBranch_eq_ok parsedResult
    exact fun expected wanted => (ih common ranRest common rfl).trans (asked expected wanted)
  | case2 type last =>
    simp only [bind_eq_ok, pure_eq_ok] at ran
    obtain ⟨⟨e, common⟩, parsedLast, same⟩ := ran
    cases same
    obtain ⟨-, typed, asked⟩ := Argument.parseBranch_eq_ok parsedLast
    exact fun expected wanted => typed.trans (asked expected wanted)
  | case3 => cases ran

/-- Branches whose results and fallback share the type of the first, if one was asked for. -/
structure Branches (env : Environment W N) (type : Option ValueType)
    (branches : List (Expr W N × Expr W N)) (fallback : Expr W N) : Prop where
  ofBranches : ∀ branch ∈ branches, (branch.1.WellTyped env ∧ branch.2.WellTyped env) ∧
    branch.1.type = .boolean ∧ branch.2.type = fallback.type
  ofFallback : fallback.WellTyped env
  asked : ∀ expected, type = some expected → fallback.type = expected

namespace Branches

variable {type : Option ValueType} {others : List (Expr W N × Expr W N)} {fallback : Expr W N}

/-- One more branch in front, whose result has told the type of those after it. -/
theorem cons {condition result : Expr W N} {common : ValueType}
    (rest : Branches env (some common) others fallback)
    (ofCondition : condition.WellTyped env ∧ condition.type = .boolean)
    (ofResult : result.WellTyped env ∧ result.type = common ∧
      ∀ expected, type = some expected → common = expected) :
    Branches env type ((condition, result) :: others) fallback := by
  obtain ⟨resultTyped, resultType, asked⟩ := ofResult
  have same := rest.asked common rfl
  refine ⟨List.forall_mem_cons.2 ⟨?_, rest.ofBranches⟩, rest.ofFallback, ?_⟩
  · exact ⟨⟨ofCondition.1, resultTyped⟩, ofCondition.2, resultType.trans same.symm⟩
  · exact fun expected wanted => same.trans (asked expected wanted)

/-- No branch, and the fallback alone. -/
theorem single {common : ValueType} (ofFallback : fallback.WellTyped env ∧
      fallback.type = common ∧ ∀ expected, type = some expected → common = expected) :
    Branches env type [] fallback :=
  ⟨by simp, ofFallback.1, fun expected wanted =>
    ofFallback.2.1.trans (ofFallback.2.2 expected wanted)⟩

theorem wellTyped (all : Branches env type others fallback) :
    (Expr.case others fallback fallback.type).WellTyped env := by
  refine Expr.wellTyped_case_iff.2 ⟨⟨rfl, ?_⟩, ?_, all.ofFallback⟩
  · exact fun branch member => (all.ofBranches branch member).2
  · exact fun branch member => (all.ofBranches branch member).1

end Branches

theorem branches_sound {operator : String} {type : Option ValueType}
    {args : List (Argument W N)} {parsed : List (Expr W N × Expr W N)} {fallback : Expr W N}
    (sound : ∀ argument ∈ args, argument.Sound env)
    (ran : branches parser operator type args = .ok (parsed, fallback)) :
    Branches env type parsed fallback := by
  fun_induction branches parser operator type args generalizing parsed with
  | case1 type condition result rest ih =>
    simp only [List.forall_mem_cons] at sound
    obtain ⟨ofCondition, ofResult, ofRest⟩ := sound
    simp only [bind_eq_ok, pure_eq_ok] at ran
    obtain ⟨c, parsedCondition, ⟨r, common⟩, parsedResult, ⟨others, last⟩, ranRest, same⟩ := ran
    cases same
    exact (ih common ofRest ranRest).cons (ofCondition.parseAs parsedCondition)
      (ofResult.parseBranch parsedResult)
  | case2 type last =>
    simp only [bind_eq_ok, pure_eq_ok] at ran
    obtain ⟨⟨e, common⟩, parsedLast, same⟩ := ran
    cases same
    exact .single ((sound last List.mem_cons_self).parseBranch parsedLast)
  | case3 => cases ran

theorem labelledBranches_sound {operator : String} {type : Option ValueType} {input : Expr W N}
    {labelType : ValueType} {args : List (Argument W N)}
    {parsed : List (Expr W N × Expr W N)} {fallback : Expr W N}
    (ofInput : input.WellTyped env ∧ input.type = labelType)
    (comparable : labelType ≠ .numberArray) (sound : ∀ argument ∈ args, argument.Sound env)
    (ran : labelledBranches parser operator type input labelType args = .ok (parsed, fallback)) :
    Branches env type parsed fallback := by
  fun_induction labelledBranches parser operator type input labelType args generalizing parsed with
  | case1 type first result rest ih =>
    simp only [List.forall_mem_cons] at sound
    obtain ⟨-, ofResult, ofRest⟩ := sound
    simp only [bind_eq_ok, pure_eq_ok] at ran
    obtain ⟨value, labelled, ⟨r, common⟩, parsedResult, ⟨others, last⟩, ranRest, same⟩ := ran
    cases same
    refine (ih common ofRest ranRest).cons ⟨?_, rfl⟩ (ofResult.parseBranch parsedResult)
    exact equality_wellTyped (.inl rfl) ofInput.1 (by simp) (ofInput.2 ▸ comparable)
      ((label_eq_ok labelled).2.trans ofInput.2.symm)
  | case2 type last =>
    simp only [bind_eq_ok, pure_eq_ok] at ran
    obtain ⟨⟨e, common⟩, parsedLast, same⟩ := ran
    cases same
    exact .single ((sound last List.mem_cons_self).parseBranch parsedLast)
  | case3 => cases ran

theorem number?_eq_some {json : Json} {n : W} (read : json.number? = some n) :
    ∃ d, n = Scalar.ofDecimal d := by
  cases json <;> cases read
  exact ⟨_, rfl⟩

theorem ascend_eq_ok [Scalar.Ordered W] {d : Decimal} {stop : W} {checked : Unit}
    (written : ∃ e, stop = Scalar.ofDecimal e)
    (above : ascend parser (some (Scalar.ofDecimal d)) stop = .ok checked) :
    Scalar.lt (Scalar.ofDecimal d) stop = true := by
  obtain ⟨e, rfl⟩ := written
  simp only [ascend] at above
  split at above
  · cases above
  · exact Scalar.Ordered.lt_of_not_le d e (by simp_all)

/-- Stops that ascend strictly from above the one before them, with outputs of one type. -/
structure Stops (env : Environment W N) (type : Option ValueType) (previous : Option Decimal)
    (stops : List (W × Expr W N)) : Prop where
  ofOutputs : ∀ stop ∈ stops, stop.2.WellTyped env
  shared : ∃ common, (∀ stop ∈ stops, stop.2.type = common) ∧
    ∀ expected, type = some expected → common = expected
  ascending : stops.Pairwise fun lower upper => Scalar.lt lower.1 upper.1 = true
  above : ∀ d, previous = some d → ∀ stop ∈ stops, Scalar.lt (Scalar.ofDecimal d) stop.1 = true

theorem stops_sound [Scalar.Ordered W] {operator : String} {type : Option ValueType}
    (previous : Option Decimal) {args : List (Argument W N)} {parsed : List (W × Expr W N)}
    (sound : ∀ argument ∈ args, argument.Sound env)
    (ran : stops parser operator type (previous.map Scalar.ofDecimal) args = .ok parsed) :
    Stops env type previous parsed := by
  generalize before : previous.map (Scalar.ofDecimal (α := W)) = earlier at ran
  fun_induction stops parser operator type earlier args generalizing previous parsed with
  | case1 => cases ran
  | case2 type earlier stop output rest n read ih =>
    simp only [List.forall_mem_cons] at sound
    obtain ⟨-, ofOutput, ofRest⟩ := sound
    simp only [bind_eq_ok, pure_eq_ok] at ran
    obtain ⟨checked, ascended, ⟨e, common⟩, parsedOutput, others, ranRest, rfl⟩ := ran
    obtain ⟨d, rfl⟩ := number?_eq_some read
    obtain ⟨outputTyped, outputType, asked⟩ := ofOutput.parseBranch parsedOutput
    have tail : Stops env (some common) (some d) others := ih common (some d) ofRest rfl ranRest
    have higher := tail.above d rfl
    obtain ⟨other, ofOthers, same⟩ := tail.shared
    obtain rfl := same common rfl
    refine ⟨List.forall_mem_cons.2 ⟨outputTyped, tail.ofOutputs⟩,
      ⟨other, List.forall_mem_cons.2 ⟨outputType, ofOthers⟩, asked⟩,
      List.pairwise_cons.2 ⟨higher, tail.ascending⟩, ?_⟩
    rintro lower rfl
    subst before
    have first : Scalar.lt (Scalar.ofDecimal lower : W) (Scalar.ofDecimal d) = true :=
      ascend_eq_ok ⟨d, rfl⟩ ascended
    refine List.forall_mem_cons.2 ⟨first, fun stop member => ?_⟩
    exact Scalar.Ordered.lt_trans first (higher stop member)
  | case3 args type earlier =>
    cases ran
    exact ⟨by simp, ⟨type.getD .number, by simp, by simp_all⟩, .nil, by simp⟩

theorem interpolation_wellTyped {operator : String} {curve : Curve W} {input e : Expr W N}
    {stops : List (W × Expr W N)} {type : Option ValueType}
    (ofInput : input.WellTyped env ∧ input.type = .number) (ofStops : Stops env type none stops)
    (made : interpolation parser operator curve input stops = .ok e) : e.WellTyped env := by
  unfold interpolation at made
  split at made
  · cases made
  next stop first rest =>
    split at made
    next blendable =>
      cases made
      obtain ⟨common, outputs, -⟩ := ofStops.shared
      have same : first.type = common := outputs _ List.mem_cons_self
      refine Expr.wellTyped_interpolate_iff.2 ⟨⟨ofInput.2, by simp, blendable, ?_,
        ofStops.ascending⟩, ofInput.1, ofStops.ofOutputs⟩
      exact fun stop member => (outputs stop member).trans same.symm
    next => cases made

/-! ## Calls -/

/-- The forms a style can call: no variable is read by a form for frame inputs, and only the two
equalities compare. -/
def Form.Callable : Form → Prop
  | .input source => ∀ name, source ≠ .styleVariable name
  | .equality op => op = .equal ∨ op = .notEqual
  | _ => True

theorem callable_ofName? {name : String} {f : Form} (called : Form.ofName? name = some f) :
    f.Callable := by
  have listed : ∀ entry ∈ forms, entry.2.Callable := by
    simp [forms, Form.Callable]
  rcases Option.or_eq_some_iff.1 called with found | ⟨-, plain⟩
  · exact listed (name, f) (mem_of_lookup found)
  · obtain ⟨op, -, rfl⟩ := Option.map_eq_some_iff.1 plain
    trivial

theorem check_eq_ok {arity : Arity} {operator : String} {count : Nat} {checked : Unit}
    (passed : checkArity parser arity operator count = .ok checked) :
    arity.admits count = true := by
  unfold checkArity at passed
  split at passed
  · assumption
  · cases passed

theorem colorArity_admits {name : String} {count : Nat}
    (admitted : (colorArity name).admits count = true) : 3 ≤ count ∧ count ≤ 4 := by
  obtain ⟨enough, most⟩ := Arity.admits_iff.1 admitted
  unfold colorArity at enough most
  split at most
  next rgb =>
    rw [if_pos rgb] at enough
    exact ⟨enough, Nat.le_succ_of_le (most 3 rfl)⟩
  next notRgb =>
    rw [if_neg notRgb] at enough
    split at most
    next rgba =>
      rw [if_pos rgba] at enough
      exact ⟨Nat.le_of_succ_le enough, most 4 rfl⟩
    next notRgba =>
      rw [if_neg notRgba] at enough
      exact ⟨enough, most 4 rfl⟩

/-- Arguments that were all parsed as one type. -/
theorem mapM_parseAs_sound {operator : String} {type : ValueType} {args : List (Argument W N)}
    {parsed : List (Expr W N)} (sound : ∀ argument ∈ args, argument.Sound env)
    (ran : args.mapM (·.parseAs parser operator type) = .ok parsed) :
    parsed.length = args.length ∧ ∀ e ∈ parsed, e.WellTyped env ∧ e.type = type := by
  obtain ⟨sameLength, ofParsed⟩ := mapM_eq_ok ran
  refine ⟨sameLength, fun e member => ?_⟩
  obtain ⟨argument, inArgs, parsedArgument⟩ := ofParsed e member
  exact (sound argument inArgs).parseAs parsedArgument

theorem scalarType?_ne_numberArray {json : Json} {type : ValueType}
    (scalar : scalarType? json = some type) : type ≠ .numberArray := by
  cases json <;> cases scalar <;> simp

/-- What a `match` is parsed to. -/
theorem labelled_eq_ok {hint : Option ValueType} {name : String} {args : List (Argument W N)}
    {e : Expr W N} (parsed : form parser hint name args .labelled = .ok e) :
    ∃ input first rest type x branches fallback, args = input :: first :: rest ∧
      ¬(args.length < 4 ∨ args.length % 2 ≠ 0) ∧ scalarType? first.json = some type ∧
      input.parseAs parser name type = .ok x ∧
      labelledBranches parser name hint x type (first :: rest) = .ok (branches, fallback) ∧
      e = .case branches fallback fallback.type := by
  simp only [form] at parsed
  split at parsed
  next input first rest =>
    split at parsed
    next => cases parsed
    next enough =>
      split at parsed
      next => cases parsed
      next type scalar =>
        simp only [bind_eq_ok, pure_eq_ok] at parsed
        obtain ⟨x, parsedInput, ⟨branches, fallback⟩, ran, rfl⟩ := parsed
        exact ⟨input, first, rest, type, x, branches, fallback, rfl, enough, scalar, parsedInput,
          ran, rfl⟩
  next => cases parsed

/-- A call over sound arguments is well-typed, one form at a time. -/
theorem form_wellTyped [Scalar.Ordered W] {hint : Option ValueType} {name : String}
    {args : List (Argument W N)} {f : Form} {e : Expr W N} (callable : f.Callable)
    (sound : ∀ argument ∈ args, argument.Sound parser.environment)
    (parsed : form parser hint name args f = .ok e) :
    e.WellTyped parser.environment := by
  cases f with
  | property =>
    simp only [form] at parsed
    split at parsed
    · obtain ⟨_, -, parsed⟩ := bind_eq_ok.1 parsed
      exact ofProperty_wellTyped parsed
    · cases parsed
  | styleVariable =>
    simp only [form] at parsed
    split at parsed
    · obtain ⟨_, -, parsed⟩ := bind_eq_ok.1 parsed
      exact ofVariable_wellTyped parsed
    · cases parsed
  | external =>
    simp only [form] at parsed
    split at parsed
    · obtain ⟨_, -, parsed⟩ := bind_eq_ok.1 parsed
      exact ofExternal_wellTyped parsed
    · cases parsed
  | input source =>
    simp only [form, bind_eq_ok, pure_eq_ok] at parsed
    obtain ⟨_, -, rfl⟩ := parsed
    cases source with
    | styleVariable name => exact absurd rfl (callable name)
    | _ => simp [Expr.Respects, FrameInput.type?]
  | literal =>
    simp only [form] at parsed
    split at parsed
    next argument =>
      split at parsed
      · exact ofNumbers_wellTyped parsed
      · exact sound argument List.mem_cons_self _ _ parsed
    next => cases parsed
  | case =>
    simp only [form] at parsed
    split at parsed
    · cases parsed
    simp only [bind_eq_ok, pure_eq_ok] at parsed
    obtain ⟨⟨others, fallback⟩, ran, rfl⟩ := parsed
    exact (branches_sound sound ran).wellTyped
  | labelled =>
    obtain ⟨input, first, rest, type, x, others, fallback, rfl, -, scalar, parsedInput, ran, rfl⟩ :=
      labelled_eq_ok parsed
    simp only [List.forall_mem_cons] at sound
    exact (labelledBranches_sound (sound.1.parseAs parsedInput)
      (scalarType?_ne_numberArray scalar) (List.forall_mem_cons.2 sound.2) ran).wellTyped
  | interpolate =>
    simp only [form] at parsed
    split at parsed
    next curve input rest =>
      split at parsed
      · cases parsed
      simp only [List.forall_mem_cons] at sound
      simp only [bind_eq_ok] at parsed
      obtain ⟨_, -, x, parsedInput, all, ran, made⟩ := parsed
      exact interpolation_wellTyped (sound.2.1.parseAs parsedInput)
        (stops_sound none sound.2.2 ran) made
    next => cases parsed
  | between =>
    simp only [form] at parsed
    split at parsed
    next x low high =>
      simp only [List.forall_mem_cons] at sound
      simp only [bind_eq_ok, pure_eq_ok] at parsed
      obtain ⟨_, parsedX, _, parsedLow, _, parsedHigh, rfl⟩ := parsed
      exact between_wellTyped (sound.1.parseAs parsedX) (sound.2.1.parseAs parsedLow)
        (sound.2.2.1.parseAs parsedHigh)
    next => cases parsed
  | membership =>
    simp only [form] at parsed
    split at parsed
    next needle items =>
      simp only [List.forall_mem_cons] at sound
      simp only [bind_eq_ok, pure_eq_ok] at parsed
      obtain ⟨_, -, ⟨type, values⟩, read, x, parsedNeedle, rfl⟩ := parsed
      obtain ⟨comparable, same⟩ := haystackValues_eq_ok read
      obtain ⟨ofNeedle, rfl⟩ := sound.1.parseAs parsedNeedle
      exact membership_wellTyped ofNeedle comparable same
    next => cases parsed
  | color =>
    simp only [form, bind_eq_ok, pure_eq_ok] at parsed
    obtain ⟨_, checked, channels, ran, rfl⟩ := parsed
    obtain ⟨sameLength, ofChannels⟩ := mapM_parseAs_sound sound ran
    exact colorOf_wellTyped (sameLength ▸ colorArity_admits (check_eq_ok checked)) ofChannels
  | equality op =>
    simp only [form] at parsed
    split at parsed
    next left right =>
      simp only [List.forall_mem_cons] at sound
      simp only [bind_eq_ok] at parsed
      obtain ⟨x, parsedLeft, y, parsedRight, parsed⟩ := parsed
      split at parsed
      · cases parsed
      next comparable =>
        simp only [bind_eq_ok, expect_eq_ok, pure_eq_ok] at parsed
        obtain ⟨_, same, rfl⟩ := parsed
        exact equality_wellTyped callable (sound.1 _ _ parsedLeft) (sound.2.1 _ _ parsedRight)
          comparable same
    next => cases parsed
  | operator op =>
    simp only [form, bind_eq_ok, pure_eq_ok] at parsed
    obtain ⟨_, checked, parsedArgs, ran, rfl⟩ := parsed
    obtain ⟨sameLength, ofArgs⟩ := mapM_parseAs_sound sound ran
    have admitted := check_eq_ok checked
    rw [← sameLength] at admitted
    exact operator_wellTyped op admitted ofArgs

/-! ## Trees -/

/-- A call is parsed by its form. -/
theorem tree_call {name : String} {f : Form} (called : Form.ofName? name = some f)
    (args : List Json) (hint : Option ValueType) :
    tree parser (.array (.string name :: args)) hint =
      form parser hint name (arguments parser args) f := by
  simp [tree, call, called]

/-- What it takes to show something of every tree, and of the arguments of every call: to show it
of each kind of tree, and of a call from its arguments. -/
structure TreeInduction (parser : Parser W N) (P : Argument W N → Prop) : Prop where
  bool (b : Bool) : P ⟨.bool b, fun _ => .ok (.literal (.boolean b))⟩
  number (n : Json.Number) : P ⟨.number n, fun _ => .ok (.literal (.number n.toScalar))⟩
  text (s : String) : P ⟨.string s, ofText parser s⟩
  numbers (items : List Json) : P ⟨.array items, ofNumbers parser items⟩
  refused (json : Json) (fault : Fault) :
    P ⟨json, fun _ => .error (.expression parser.property fault)⟩
  call {name : String} {f : Form} {args : List Json} (called : Form.ofName? name = some f)
    (ofArgs : ∀ argument ∈ arguments parser args, P argument) :
    P ⟨.array (.string name :: args), fun hint => form parser hint name (arguments parser args) f⟩

namespace TreeInduction

variable {P : Argument W N → Prop}

mutual

theorem tree (holds : TreeInduction parser P) (json : Json) : P ⟨json, Parse.tree parser json⟩ := by
  match json with
  | .bool b => exact holds.bool b
  | .number n => exact holds.number n
  | .string s => exact holds.text s
  | .null | .object members | .array [] => exact holds.refused _ _
  | .array (.string name :: args) =>
    cases called : Form.ofName? name with
    | none =>
      have unknown : Parse.tree parser (.array (.string name :: args)) =
          fun _ => .error (.expression parser.property (.unknownOperator name)) := by
        funext hint
        simp [Parse.tree, Parse.call, called]
      rw [unknown]
      exact holds.refused _ _
    | some f =>
      rw [funext (tree_call called args)]
      exact holds.call called (arguments holds args)
  | .array (.bool _ :: _) | .array (.number _ :: _) | .array (.null :: _)
  | .array (.array _ :: _) | .array (.object _ :: _) => exact holds.numbers _

theorem arguments (holds : TreeInduction parser P) (items : List Json) :
    ∀ argument ∈ Parse.arguments parser items, P argument := by
  match items with
  | [] => simp [Parse.arguments]
  | json :: rest => exact List.forall_mem_cons.2 ⟨tree holds json, arguments holds rest⟩

end

end TreeInduction

/-- Whatever a tree is parsed to is well-typed. -/
theorem tree_sound [Scalar.Ordered W] (json : Json) :
    (Argument.mk json (tree parser json)).Sound parser.environment := by
  refine TreeInduction.tree ⟨?bool, ?number, ?text, ?numbers, ?refused, ?call⟩ json
  case bool | number =>
    rintro _ hint e ⟨⟩
    exact Expr.wellTyped_literal _
  case text => exact fun _ _ _ parsed => ofText_wellTyped parsed
  case numbers => exact fun _ _ _ parsed => ofNumbers_wellTyped parsed
  case refused => rintro _ _ hint e ⟨⟩
  case call =>
    intro name f args called sound hint e parsed
    exact form_wellTyped (callable_ofName? called) sound parsed

/-- A style property that is parsed has the type it was asked for and keeps the rules of
typing. -/
theorem value_wellTyped [Scalar.Ordered W] {name : String} {expected : ValueType} {json : Json}
    {e : Expr W N} (parsed : (value parser name expected json).1 = .ok e) :
    e.type = expected ∧ e.WellTyped parser.environment := by
  obtain ⟨typed, same⟩ := (tree_sound json).parseAs parsed
  exact ⟨same, typed⟩

end MapStyle.Parse
