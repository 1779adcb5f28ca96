import Mathlib.Data.List.Nodup
import MapStyle.Proofs.Expr.ParserTyping
import MapStyle.Style.Parsed

/-!
# What parsing a style establishes

Every property of a parsed style occurs once, has the type that styles give it, and is well-typed
under the declarations of the style. Everything later on relies on this and on nothing else about
how the style was written.
-/

namespace MapStyle

variable {W N : Type}

/-- No style property is a list of numbers. -/
theorem StyleProperty.type_ne_numberArray (property : StyleProperty) :
    property.type ≠ .numberArray := by
  cases property <;> decide

namespace ParsedStyle

/-- The declarations under which the expressions of a style were parsed. -/
def environment (style : ParsedStyle W N) : Environment W N :=
  ⟨style.schema, style.bindings, style.externals⟩

/-- Every property occurs once and is a well-typed expression of its type. -/
structure Sound [Scalar W] (style : ParsedStyle W N) : Prop where
  distinct : (style.properties.map Prod.fst).Nodup
  typed : ∀ entry ∈ style.properties,
    entry.2.type = entry.1.type ∧ entry.2.WellTyped style.environment

theorem distinct_inOrder (parsed : List (StyleProperty × Expr W N)) :
    ((inOrder parsed).map Prod.fst).Nodup := by
  rw [inOrder, List.map_filterMap]
  refine List.Nodup.filterMap ?_ (by decide)
  have named (property key : StyleProperty)
      (found : (parsed.find? (·.1 = property)).map Prod.fst = some key) : property = key := by
    obtain ⟨entry, atEntry, same⟩ := Option.map_eq_some_iff.1 found
    have named := List.find?_some atEntry
    rw [← same]
    exact (of_decide_eq_true named).symm
  intro first second key ofFirst ofSecond
  exact (named first key ofFirst).trans (named second key ofSecond).symm

theorem mem_of_mem_inOrder {parsed : List (StyleProperty × Expr W N)}
    {entry : StyleProperty × Expr W N} (member : entry ∈ inOrder parsed) : entry ∈ parsed := by
  obtain ⟨property, -, found⟩ := List.mem_filterMap.1 member
  exact List.mem_of_find?_eq_some found

variable [Scalar W] [Scalar N] [Precision W N]

/-! ## One parser for all properties -/

/-- What a parser makes of a property that it reads first. -/
def parsedAlone (env : Environment W N) (name : String) (json : Json) :
    Parsed (StyleProperty × Expr W N) :=
  (parseProperty (.start env) name json).1

/-- A property is parsed by its name and then by its value. -/
theorem parsedAlone_eq (env : Environment W N) (name : String) (json : Json) :
    parsedAlone env name json = match StyleProperty.ofName? name with
      | none => .error (.unknownStyleProperty name)
      | some property => (Parse.property env name property.type json).map (Prod.mk property) := by
  unfold parsedAlone parseProperty Parse.property
  cases StyleProperty.ofName? name with
  | none => rfl
  | some property =>
    dsimp only
    split
    next ran => rw [ran, Except.map]
    next ran => rw [ran, Except.map]

/-- What a parser makes of a property has nothing to do with the properties that it has been at. It
keeps its declarations for the next one. -/
theorem parseProperty_start (parser : Parser W N) (name : String) (json : Json) :
    (parseProperty parser name json).1 = parsedAlone parser.environment name json ∧
      (parseProperty parser name json).2.environment = parser.environment := by
  unfold parsedAlone parseProperty Parse.value
  cases StyleProperty.ofName? name with
  | none => exact ⟨rfl, rfl⟩
  | some property =>
    dsimp only [Parser.start]
    generalize Parse.Argument.parseAs _ _ "value" property.type = parsed
    cases parsed with
    | ok e => exact ⟨rfl, rfl⟩
    | error e => exact ⟨rfl, rfl⟩

/-- One parser makes of the properties of a style what a parser for each of them makes. -/
theorem parseProperties_eq_mapM (parser : Parser W N) (entries : List (String × Json)) :
    parseProperties parser entries =
      entries.mapM fun (name, json) => parsedAlone parser.environment name json := by
  induction entries generalizing parser with
  | nil => rfl
  | cons entry rest ih =>
    obtain ⟨name, json⟩ := entry
    obtain ⟨alone, kept⟩ := parseProperty_start parser name json
    rw [List.mapM_cons, parseProperties]
    dsimp only
    rw [← alone]
    cases ran : parseProperty parser name json with
    | mk parsed after =>
      rw [ran] at kept
      cases parsed with
      | ok entry =>
        dsimp only
        rw [ih, kept]
        rfl
      | error e => rfl

/-! ## What is established -/

theorem parsedAlone_eq_ok {env : Environment W N} {name : String} {json : Json}
    {entry : StyleProperty × Expr W N} (parsed : parsedAlone env name json = .ok entry) :
    StyleProperty.ofName? name = some entry.1 ∧
      Parse.property env name entry.1.type json = .ok entry.2 := by
  rw [parsedAlone_eq] at parsed
  split at parsed
  next => cases parsed
  next property known =>
    cases ran : Parse.property env name property.type json with
    | ok e =>
      rw [ran] at parsed
      cases parsed
      exact ⟨known, ran⟩
    | error e =>
      rw [ran] at parsed
      cases parsed

theorem sound_ofSpec [Scalar.Ordered W] {spec : StyleSpec W N} {style : ParsedStyle W N}
    (parsed : ofSpec spec = .ok style) : style.Sound := by
  unfold ofSpec at parsed
  split at parsed
  next => cases parsed
  next bindings declared =>
    simp only at parsed
    split at parsed
    next => cases parsed
    next entries ran =>
      cases parsed
      refine ⟨distinct_inOrder entries, fun entry member => ?_⟩
      rw [parseProperties_eq_mapM] at ran
      obtain ⟨-, each⟩ := mapM_eq_ok ran
      obtain ⟨⟨name, json⟩, -, parsed⟩ := each entry (mem_of_mem_inOrder member)
      exact Parse.value_wellTyped (parsedAlone_eq_ok parsed).2

end ParsedStyle

end MapStyle
