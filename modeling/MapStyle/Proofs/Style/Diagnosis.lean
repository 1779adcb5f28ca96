import MapStyle.Proofs.Expr.Congruence
import MapStyle.Proofs.Style.Conflict
import MapStyle.Proofs.Text.Bytes

/-!
# Which property an error is about

The properties of a style are parsed one by one, by a parser that remembers nothing of the
properties before, so that whether one of them is refused, and with which error, has nothing to do
with the others. The error of a style is that of the first property that is refused, in the order of
the names, and it tells the name; so does the error of a style that was parsed and cannot be
compiled.
-/

namespace MapStyle

variable {W N : Type}

namespace StyleSpec

/-- A style of one property, with the declarations of another style. -/
def only (spec : StyleSpec W N) (name : String) (json : Json) : StyleSpec W N :=
  { spec with properties := Dictionary.empty.insert name json }

/-- The declarations under which the properties of a style are parsed. -/
def environment (spec : StyleSpec W N) (bindings : Dictionary (Value W N)) : Environment W N :=
  ⟨spec.schema, bindings, spec.externals⟩

end StyleSpec

variable [Scalar W] [Scalar N] [Precision W N]

theorem StyleProperty.name_of_ofName? {name : String} {property : StyleProperty}
    (known : ofName? name = some property) : property.name = name := by
  have same := List.find?_some known
  exact eq_of_beq same

namespace ParsedStyle

variable {spec : StyleSpec W N} {style : ParsedStyle W N} {bindings : Dictionary (Value W N)}
  {env : Environment W N} {e : CompileError} {name : String} {json : Json}

/-! ## One property -/

/-- A property is refused because its name is unknown or because of its expression. -/
theorem parsedAlone_eq_error : parsedAlone env name json = .error e ↔
    (StyleProperty.ofName? name = none ∧ e = .unknownStyleProperty name) ∨
      ∃ property, StyleProperty.ofName? name = some property ∧
        Parse.property env name property.type json = .error e := by
  rw [parsedAlone_eq]
  cases StyleProperty.ofName? name with
  | none => simp [eq_comm]
  | some property =>
    cases ran : Parse.property env name property.type json with
    | ok e => simp [ran, Except.map]
    | error e => simp [ran, Except.map]

/-- Every error about a property tells its name. -/
theorem property?_of_parsedAlone (failed : parsedAlone env name json = .error e) :
    e.property? = some name := by
  rcases parsedAlone_eq_error.1 failed with ⟨-, rfl⟩ | ⟨property, -, failed⟩
  · rfl
  · obtain ⟨fault, rfl⟩ := Parse.value_blamed failed
    rfl

/-- A parsed property has the name under which it stands. -/
theorem name_of_parsedAlone {entry : StyleProperty × Expr W N}
    (parsed : parsedAlone env name json = .ok entry) : entry.1.name = name :=
  StyleProperty.name_of_ofName? (parsedAlone_eq_ok parsed).1

/-! ## All properties -/

/-- With valid variables, a style is refused as its properties are. -/
theorem ofSpec_eq_error (declared : spec.variableValues = .ok bindings) :
    ofSpec spec = .error e ↔
      spec.properties.entries.mapM (fun (name, json) =>
        parsedAlone (spec.environment bindings) name json) = .error e := by
  unfold ofSpec
  rw [declared]
  simp only [parseProperties_eq_mapM, Parser.start_environment, StyleSpec.environment]
  split
  next ran => rw [ran, Except.error.injEq, Except.error.injEq]
  next ran => simp [ran]

/-- A style of one property is refused as that property is. -/
theorem ofSpec_only_eq_error (declared : spec.variableValues = .ok bindings) :
    ofSpec (spec.only name json) = .error e ↔
      parsedAlone (spec.environment bindings) name json = .error e := by
  have single : (spec.only name json).properties.entries = [(name, json)] := rfl
  have same : (spec.only name json).variableValues = .ok bindings := declared
  have environment : (spec.only name json).environment bindings = spec.environment bindings := rfl
  rw [ofSpec_eq_error same, single, environment, List.mapM_cons, List.mapM_nil, bind_eq_error]
  simp [bind_eq_error, pure, Except.pure]

/-- The properties of a parsed style are those of the specification. -/
theorem exists_entry_of_mem (parsed : ofSpec spec = .ok style) {entry : StyleProperty × Expr W N}
    (member : entry ∈ style.properties) :
    ∃ json, spec.properties.get? entry.1.name = some json := by
  unfold ofSpec at parsed
  split at parsed
  next => cases parsed
  next bindings declared =>
    simp only at parsed
    split at parsed
    next => cases parsed
    next entries ran =>
      cases parsed
      rw [parseProperties_eq_mapM] at ran
      obtain ⟨⟨name, json⟩, listed, parsed⟩ := (mapM_eq_ok ran).2 entry (mem_of_mem_inOrder member)
      rw [name_of_parsedAlone parsed]
      exact ⟨json, Dictionary.get?_eq_some_iff.2 listed⟩

/-- Of the properties of a style, one that is refused on its own, and none before it is. -/
structure FirstRefused (spec : StyleSpec W N) (name : String) (json : Json) (e : CompileError) :
    Prop where
  set : spec.properties.get? name = some json
  refused : ofSpec (spec.only name json) = .error e
  least : ∀ other otherJson, spec.properties.get? other = some otherJson →
    (∃ e, ofSpec (spec.only other otherJson) = .error e) → Text.bytes name ≤ Text.bytes other

theorem exists_firstRefused (declared : spec.variableValues = .ok bindings)
    (failed : ofSpec spec = .error e) : ∃ name json, FirstRefused spec name json e := by
  obtain ⟨before, ⟨name, json⟩, after, entries, ran, refused⟩ :=
    mapM_eq_error ((ofSpec_eq_error declared).1 failed)
  refine ⟨name, json, ?_, (ofSpec_only_eq_error declared).2 refused, ?_⟩
  · rw [Dictionary.get?_eq_some_iff, entries]
    exact List.mem_append_right _ List.mem_cons_self
  · rintro other otherJson set ⟨otherError, failed⟩
    rw [ofSpec_only_eq_error declared] at failed
    rw [Dictionary.get?_eq_some_iff, entries, List.mem_append] at set
    rcases set with earlier | later
    · obtain ⟨entry, parsed⟩ := ran _ earlier
      cases parsed.symm.trans failed
    · have ascending := spec.properties.ascending
      rw [entries] at ascending
      obtain ⟨behind, -⟩ := List.pairwise_cons.1 (List.pairwise_append.1 ascending).2.1
      rw [← List.not_lt, Text.bytes_lt_iff]
      rcases List.mem_cons.1 later with same | later
      · cases same
        exact String.lt_irrefl _
      · exact String.lt_asymm (behind _ later)

/-! ## Styles -/

/-- With valid variables, a style is refused exactly when one of its properties is unknown or
refused on its own. The error is that of the first such property, as it is on its own, and tells
its name: at whatever property the parser has been before, it refuses a value in the name of the
property whose value it is, and with the error it would give if it had read nothing before. What
compiling reports of a parsed style names one of its properties as well. -/
theorem failure_named [Scalar.Ordered W] (declared : spec.variableValues = .ok bindings) :
    ((∃ e, ofSpec spec = .error e) ↔
      ∃ name json, spec.properties.get? name = some json ∧
        (StyleProperty.ofName? name = none ∨ ∃ property e,
          StyleProperty.ofName? name = some property ∧
            Parse.property (spec.environment bindings) name property.type json = .error e)) ∧
    (∀ e, ofSpec spec = .error e → ∃ name json,
      FirstRefused spec name json e ∧ e.property? = some name) ∧
    (∀ (parser : Parser W N) name expected json e,
      parser.environment = spec.environment bindings →
      (Parse.value parser name expected json).1 = .error e →
        e.property? = some name ∧
          Parse.property (spec.environment bindings) name expected json = .error e) ∧
    ∀ style e, ofSpec spec = .ok style → style.lower = .error e →
      ∃ name, e.property? = some name ∧ ∃ json, spec.properties.get? name = some json := by
  refine ⟨⟨?_, ?_⟩, fun e failed => ?_, ?_, fun style e parsed failed => ?_⟩
  · rintro ⟨e, failed⟩
    obtain ⟨name, json, first⟩ := exists_firstRefused declared failed
    refine ⟨name, json, first.set, ?_⟩
    rcases parsedAlone_eq_error.1 ((ofSpec_only_eq_error declared).1 first.refused) with
      ⟨unknown, -⟩ | ⟨property, known, failed⟩
    · exact .inl unknown
    · exact .inr ⟨property, e, known, failed⟩
  · rintro ⟨name, json, set, cause⟩
    obtain ⟨e, refused⟩ : ∃ e, parsedAlone (spec.environment bindings) name json = .error e := by
      rcases cause with unknown | ⟨property, e, known, failed⟩
      · exact ⟨_, parsedAlone_eq_error.2 (.inl ⟨unknown, rfl⟩)⟩
      · exact ⟨e, parsedAlone_eq_error.2 (.inr ⟨property, known, failed⟩)⟩
    cases ran : spec.properties.entries.mapM (fun (name, json) =>
        parsedAlone (spec.environment bindings) name json) with
    | error other => exact ⟨other, (ofSpec_eq_error declared).2 ran⟩
    | ok entries =>
      obtain ⟨entry, parsed⟩ := exists_of_mapM_eq_ok ran (Dictionary.get?_eq_some_iff.1 set)
      cases parsed.symm.trans refused
  · obtain ⟨name, json, first⟩ := exists_firstRefused declared failed
    refine ⟨name, json, first, ?_⟩
    exact property?_of_parsedAlone ((ofSpec_only_eq_error declared).1 first.refused)
  · intro parser name expected json e declarations failed
    obtain ⟨fault, rfl⟩ := Parse.value_blamed failed
    refine ⟨rfl, ?_⟩
    rw [← declarations]
    exact failed
  · obtain ⟨-, conflicts⟩ := lower_fails_iff_conflict parsed
    obtain ⟨entry, member, -, _, _, _, -, -, -, rfl⟩ := conflicts e failed
    exact ⟨_, rfl, exists_entry_of_mem parsed member⟩

/-- A width that is in order, and three properties that are refused: in the sum that is the radius
an operator is given two numbers for one, the color is not one, and there is no property `glow`. -/
def threeFaults : StyleSpec Double Single :=
  { StyleSpec.empty with
    properties := (((Dictionary.empty.insert
      "stroke-width" (.array [.string "var", .string "w"])).insert
      "glow" (.bool true)).insert
      "fill-color" (.string "reddish")).insert
      "circle-radius" (.array [.string "+", .number (.integer 3),
        .array [.string "abs", .number (.integer 1), .number (.integer 2)]])
    bindings := Dictionary.empty.insert "w" (.number (.integer 2)) }

/-- The error is about the radius, whose name comes first. A parser that has been at the width
before refuses the color in the name of the color. -/
theorem threeFaults_named : ∃ bindings, threeFaults.variableValues = .ok bindings ∧
    (∃ e json, ofSpec threeFaults = .error e ∧ FirstRefused threeFaults "circle-radius" json e ∧
      e.property? = some "circle-radius") ∧
    ∃ e, (Parse.value ⟨threeFaults.environment bindings, "stroke-width"⟩ "fill-color" .color
        (.string "reddish")).1 = .error e ∧ e.property? = some "fill-color" := by
  obtain ⟨bindings, declared⟩ : ∃ bindings, threeFaults.variableValues = .ok bindings := ⟨_, rfl⟩
  obtain ⟨fails, first, named, -⟩ := failure_named declared
  obtain ⟨e, failed⟩ := fails.2 ⟨"glow", .bool true, rfl, .inl rfl⟩
  refine ⟨bindings, declared, ⟨e, ?_⟩, ?_⟩
  · obtain ⟨name, json, refused, ofName⟩ := first e failed
    have radius : e.property? = some "circle-radius" := by
      cases failed
      rfl
    obtain rfl : name = "circle-radius" := Option.some.inj (ofName.symm.trans radius)
    exact ⟨json, failed, refused, ofName⟩
  · have refused : (Parse.value ⟨threeFaults.environment bindings, "stroke-width"⟩ "fill-color"
        .color (.string "reddish")).1 = .error (.expression "fill-color"
          (.invalidLiteral "`reddish` is not a color")) := by rfl
    exact ⟨_, refused, (named _ _ _ _ _ rfl refused).1⟩

end ParsedStyle

end MapStyle
