import MapStyle.Proofs.Style.Counterparts

/-!
# Styles that can be used for each other

Styles of one digest make the same choices, and they are the same where their literals and the
defaults of their variables are told apart by their words, property by property. Two numbers or two
colors with the same words are not always the same: dividing by the zeros of either sign gives the
infinities of either sign, and a color may be brighter than its bytes.
-/

namespace MapStyle

variable {W N : Type} [Scalar W] [Scalar N] [Precision W N]

namespace CompiledStyle

/-- The properties with their tiers. -/
def tiers (style : CompiledStyle W N) : List (StyleProperty × Tier) :=
  style.properties.map fun p => (p.property, p.tier)

/-- Nothing that is drawn or evaluated tells two styles apart. -/
structure Interchangeable (first second : CompiledStyle W N) : Prop where
  tiers : first.tiers = second.tiers
  plan : first.plan = second.plan
  programs : first.programs = second.programs
  uniformValues : ∀ frame, first.uniformValues frame = second.uniformValues frame
  evaluate : ∀ property c, first.evaluate property c = second.evaluate property c

theorem Interchangeable.refl (style : CompiledStyle W N) : style.Interchangeable style :=
  ⟨rfl, rfl, rfl, fun _ => rfl, fun _ _ => rfl⟩

end CompiledStyle

namespace ParsedStyle

variable {style other : ParsedStyle W N}

theorem tiers_lower (sound : style.Sound) {compiled : CompiledStyle W N}
    (ran : style.lower = .ok compiled) : compiled.tiers = style.tiers := by
  have tiers_eq {plan : Plan W N} {layout : UniformLayout}
      {entries : List (StyleProperty × Expr W N)} {properties : List (CompiledProperty W N)}
      (compiles : List.Forall₂ (style.Compiles plan layout) entries properties) :
      (properties.map fun p => (p.property, p.tier)) =
        entries.map fun entry => (entry.1, Tier.of entry.1 entry.2) := by
    induction compiles with
    | nil => rfl
    | cons first rest ih => rw [List.map_cons, List.map_cons, ih, first.property, first.tier]
  obtain ⟨-, -, -, -, -, -, compiles⟩ := lower_eq_ok sound ran
  exact tiers_eq compiles

/-- There is one program for every kind of geometry that is drawn. -/
theorem kinds_lower {compiled : CompiledStyle W N} (ran : style.lower = .ok compiled) :
    compiled.programs.map ShaderProgram.kind = style.kinds := by
  unfold lower at ran
  obtain ⟨requests, -, ran⟩ := bind_eq_ok.1 ran
  obtain ⟨properties, -, ran⟩ := bind_eq_ok.1 ran
  cases ran
  rw [List.map_map]
  exact List.map_id style.kinds

omit [Precision W N] in
theorem kinds_canonical (style : ParsedStyle W N) : style.canonical.kinds = style.kinds := by
  simp only [kinds, canonical, List.any_map, Function.comp_def]

/-! ## Styles with one canonical form -/

section Canonical

variable (sound : style.Sound) (sound' : other.Sound) (same : style.canonical = other.canonical)

include sound sound' same

/-- One of two styles with one canonical form compiles if the other does. -/
theorem lowers_of_canonical :
    (∃ compiled, style.lower = .ok compiled) ↔ ∃ compiled, other.lower = .ok compiled := by
  have requests_iff (style : ParsedStyle W N) :
      (∃ requests, style.requests = .ok requests) ↔
        ∃ requests, style.canonical.requests = .ok requests := by
    rw [requests_canonical]
    cases style.requests with
    | ok requests => exact ⟨fun _ => ⟨_, rfl⟩, fun _ => ⟨_, rfl⟩⟩
    | error e =>
      constructor
      · rintro ⟨_, made⟩
        cases made
      · rintro ⟨_, made⟩
        cases made
  rw [exists_lower_iff sound, exists_lower_iff sound', requests_iff, same, ← requests_iff]

variable {compiled compiled' : CompiledStyle W N} (ran : style.lower = .ok compiled)
  (ran' : other.lower = .ok compiled')

include ran ran'

theorem tiers_of_canonical : compiled.tiers = compiled'.tiers := by
  rw [tiers_lower sound ran, tiers_lower sound' ran', ← tiers_canonical, same, tiers_canonical]

omit sound sound' in
theorem kinds_of_canonical :
    compiled.programs.map ShaderProgram.kind = compiled'.programs.map ShaderProgram.kind := by
  rw [kinds_lower ran, kinds_lower ran', ← kinds_canonical, same, kinds_canonical]

variable [Scalar.Coded W] [Color.Stepped N]

/-- A property evaluates to the same when its literals are told apart. -/
theorem evaluate_of_canonical {property : StyleProperty} (apart : style.ApartAt other property)
    (c : Context W N) : compiled.evaluate property c = compiled'.evaluate property c := by
  rw [evaluate_lower sound ran, evaluate_lower sound' ran', find?_of_canonical same apart]

omit sound sound' in
/-- Styles with one canonical form compile to one style when their literals are told apart. -/
theorem interchangeable_of_canonical (apart : Value.Apart style.values other.values) :
    compiled.Interchangeable compiled' := by
  obtain rfl := eq_of_canonical apart same
  cases ran.symm.trans ran'
  exact .refl compiled

end Canonical

end ParsedStyle

namespace CompiledStyle

/-- Styles of one digest make the same choices. A property evaluates to the same in both where its
literals are told apart by their words, a program has the same sources where those of the
properties in its vertex stage are, and a slot of the uniform block holds the same in every frame
where the literals and the defaults behind it are. Where all of them are, one style can be used for
the other. -/
theorem interchangeable_of_hash {spec spec' : StyleSpec Double Single}
    {style other : ParsedStyle Double Single} (parsed : ParsedStyle.ofSpec spec = .ok style)
    (parsed' : ParsedStyle.ofSpec spec' = .ok other) (agree : style.externals.Agree other.externals)
    (collisionFree : style.hash = other.hash → style.words = other.words)
    (same : style.hash = other.hash) :
    style.canonical = other.canonical ∧
      ((∃ compiled, style.lower = .ok compiled) ↔ ∃ compiled, other.lower = .ok compiled) ∧
      ∀ compiled compiled', style.lower = .ok compiled → other.lower = .ok compiled' →
        compiled.tiers = compiled'.tiers ∧ compiled.plan.canonical = compiled'.plan.canonical ∧
        compiled.programs.map ShaderProgram.kind = compiled'.programs.map ShaderProgram.kind ∧
        compiled.uniforms = compiled'.uniforms ∧
        (∀ property, style.ApartAt other property →
          ∀ c, compiled.evaluate property c = compiled'.evaluate property c) ∧
        (∀ program ∈ compiled.programs, ∀ program' ∈ compiled'.programs,
          program.kind = program'.kind →
          (∀ property e, property.Feeds program.kind → (property, e) ∈ style.properties →
            Tier.of property e = .inline → style.ApartAt other property) → program = program') ∧
        (∀ (i : Nat) (slot : UniformSlot), compiled.uniforms.slots[i]? = some slot →
          style.ApartFor other slot.source →
          ∀ frame, (compiled.uniformValues frame)[i]? = (compiled'.uniformValues frame)[i]?) ∧
        (Value.Apart style.values other.values → compiled.Interchangeable compiled') := by
  have sound := ParsedStyle.sound_ofSpec parsed
  have sound' := ParsedStyle.sound_ofSpec parsed'
  have canonical_eq := ParsedStyle.canonical_of_words agree (collisionFree same)
  refine ⟨canonical_eq, ParsedStyle.lowers_of_canonical sound sound' canonical_eq, ?_⟩
  intro compiled compiled' ran ran'
  have uniforms := (ParsedStyle.uniforms_of_canonical sound sound' canonical_eq ran ran').1
  refine ⟨ParsedStyle.tiers_of_canonical sound sound' canonical_eq ran ran',
    ParsedStyle.plan_of_canonical sound sound' canonical_eq ran ran',
    ParsedStyle.kinds_of_canonical canonical_eq ran ran', uniforms, fun property apart c => ?_,
    fun program inStyle program' inOther kinds apart => ?_, fun i slot found apart frame => ?_,
    ParsedStyle.interchangeable_of_canonical canonical_eq ran ran'⟩
  · exact ParsedStyle.evaluate_of_canonical sound sound' canonical_eq ran ran' apart c
  · obtain ⟨-, -, -, -, programs⟩ := ParsedStyle.run_of_lower ran
    obtain ⟨-, -, -, -, programs'⟩ := ParsedStyle.run_of_lower ran'
    rw [programs program inStyle, programs' program' inOther, ← kinds]
    exact ParsedStyle.program_of_canonical sound sound' canonical_eq ran ran' same apart
  · rw [uniformValues, uniformValues, ← uniforms, List.getElem?_map, List.getElem?_map, found]
    exact congrArg some
      (ParsedStyle.uniformValue_of_canonical sound sound' canonical_eq ran ran' apart frame)

/-- A style of a stroke width. -/
def strokeWidth (width : Json) : StyleSpec Double Single :=
  { StyleSpec.empty with properties := Dictionary.empty.insert "stroke-width" width }

/-- Roads are wider than the rest, by labels. -/
def roadsByLabel : StyleSpec Double Single :=
  strokeWidth (.array [.string "match", .array [.string "get", .string "class"], .string "road",
    .number (.integer 4), .number (.integer 1)])

/-- Roads are wider than the rest, by a condition. -/
def roadsByCondition : StyleSpec Double Single :=
  strokeWidth (.array [.string "case",
    .array [.string "==", .array [.string "get", .string "class"], .string "road"],
    .number (.integer 4), .number (.integer 1)])

/-- The style that both ways of writing the width of roads are parsed to. -/
def widerRoads : ParsedStyle Double Single :=
  let number (n : Int) : Expr Double Single := .literal (.number (Scalar.ofDecimal (.ofInt n)))
  let isRoad : Expr Double Single :=
    .operator .equal [.property "class" .string, .literal (.string "road")] .boolean
  ⟨[(.strokeWidth, .case [(isRoad, number 4)] (number 1) .number)], .empty, none, .empty⟩

/-- A width of one divided by a number. -/
def inverse (n : Decimal) : StyleSpec Double Single :=
  strokeWidth (.array [.string "/", .number (.integer 1), .number (.real n)])

/-- The style that `inverse` is parsed to. -/
def inverseStyle (n : Double) : ParsedStyle Double Single :=
  let quotient : Expr Double Single :=
    .operator .divide [.literal (.number Scalar.one), .literal (.number n)] .number
  ⟨[(.strokeWidth, quotient)], .empty, none, .empty⟩

/-- Either way of writing the width of roads stands for the other. Widths of one divided by a zero
of either sign have the same programs, which read them from the uniform block. -/
theorem roads_interchangeable :
    (∃ compiled compiled', ofSpec roadsByLabel = .ok compiled ∧
      ofSpec roadsByCondition = .ok compiled' ∧ compiled.Interchangeable compiled') ∧
    ∃ compiled compiled', ofSpec (inverse ⟨false, 0, 0⟩) = .ok compiled ∧
      ofSpec (inverse ⟨true, 0, 0⟩) = .ok compiled' ∧
      ∀ program ∈ compiled.programs, ∀ program' ∈ compiled'.programs,
        program.kind = program'.kind → program = program' := by
  constructor
  · have parsed : ParsedStyle.ofSpec roadsByLabel = .ok widerRoads := by rfl
    have parsed' : ParsedStyle.ofSpec roadsByCondition = .ok widerRoads := by rfl
    obtain ⟨compiled, ran⟩ : ∃ compiled, widerRoads.lower = .ok compiled :=
      (ParsedStyle.exists_lower_iff (ParsedStyle.sound_ofSpec parsed)).2 ⟨_, rfl⟩
    have apart : Value.Apart widerRoads.values widerRoads.values := by
      have values_eq : widerRoads.values = [.string "road", .number (Scalar.ofDecimal (.ofInt 4)),
          .number (Scalar.ofDecimal (.ofInt 1))] := by rfl
      intro u member v member' same
      simp only [values_eq, List.mem_cons, List.not_mem_nil, or_false] at member member'
      rcases member with rfl | rfl | rfl <;> rcases member' with rfl | rfl | rfl
      all_goals first | exact absurd same (by decide +kernel) | rfl
    obtain ⟨-, -, alike⟩ := interchangeable_of_hash parsed parsed' (Registry.agree_empty _)
      (fun _ => rfl) rfl
    obtain ⟨-, -, -, -, -, -, -, interchangeable⟩ := alike compiled compiled ran ran
    refine ⟨compiled, compiled, ?_, ?_, interchangeable apart⟩
    · rw [ofSpec, parsed]
      exact ran
    · rw [ofSpec, parsed']
      exact ran
  · have parsed : ParsedStyle.ofSpec (inverse ⟨false, 0, 0⟩) =
        .ok (inverseStyle Scalar.zero) := by rfl
    have parsed' : ParsedStyle.ofSpec (inverse ⟨true, 0, 0⟩) =
        .ok (inverseStyle (-Scalar.zero)) := by rfl
    obtain ⟨compiled, ran⟩ : ∃ compiled, (inverseStyle Scalar.zero).lower = .ok compiled :=
      (ParsedStyle.exists_lower_iff (ParsedStyle.sound_ofSpec parsed)).2 ⟨_, rfl⟩
    obtain ⟨compiled', ran'⟩ : ∃ compiled, (inverseStyle (-Scalar.zero)).lower = .ok compiled :=
      (ParsedStyle.exists_lower_iff (ParsedStyle.sound_ofSpec parsed')).2 ⟨_, rfl⟩
    have words_eq : (inverseStyle Scalar.zero).words = (inverseStyle (-Scalar.zero)).words := by
      rfl
    obtain ⟨-, -, alike⟩ := interchangeable_of_hash parsed parsed' (Registry.agree_empty _)
      (fun _ => words_eq) (congrArg Digest.ofWords words_eq)
    obtain ⟨-, -, -, -, -, programs, -⟩ := alike compiled compiled' ran ran'
    refine ⟨compiled, compiled', ?_, ?_, fun program inStyle program' inOther kinds =>
      programs program inStyle program' inOther kinds fun property e _ member inline => ?_⟩
    · rw [ofSpec, parsed]
      exact ran
    · rw [ofSpec, parsed']
      exact ran'
    · cases List.mem_singleton.1 member
      cases inline

/-- The zeros of either sign have one word, and their inverses are different. -/
theorem inverse_not_interchangeable :
    ∃ style other compiled compiled', ParsedStyle.ofSpec (inverse ⟨false, 0, 0⟩) = .ok style ∧
      ParsedStyle.ofSpec (inverse ⟨true, 0, 0⟩) = .ok other ∧
      style.externals.Agree other.externals ∧ style.words = other.words ∧
      style.hash = other.hash ∧ style.lower = .ok compiled ∧ other.lower = .ok compiled' ∧
      ¬ compiled.Interchangeable compiled' := by
  have parsed : ParsedStyle.ofSpec (inverse ⟨false, 0, 0⟩) = .ok (inverseStyle Scalar.zero) := by
    rfl
  have parsed' : ParsedStyle.ofSpec (inverse ⟨true, 0, 0⟩) = .ok (inverseStyle (-Scalar.zero)) := by
    rfl
  have sound := ParsedStyle.sound_ofSpec parsed
  have sound' := ParsedStyle.sound_ofSpec parsed'
  have words_eq : (inverseStyle Scalar.zero).words = (inverseStyle (-Scalar.zero)).words := by rfl
  obtain ⟨compiled, ran⟩ : ∃ compiled, (inverseStyle Scalar.zero).lower = .ok compiled :=
    (ParsedStyle.exists_lower_iff sound).2 ⟨_, rfl⟩
  obtain ⟨compiled', ran'⟩ : ∃ compiled, (inverseStyle (-Scalar.zero)).lower = .ok compiled :=
    (ParsedStyle.exists_lower_iff sound').2 ⟨_, rfl⟩
  refine ⟨_, _, compiled, compiled', parsed, parsed', Registry.agree_empty _, words_eq,
    congrArg Digest.ofWords words_eq, ran, ran', fun interchangeable => ?_⟩
  let c : Context Double Single :=
    ⟨noProperties, .empty, .empty, Scalar.zero, Scalar.one, Scalar.zero⟩
  have evaluated := interchangeable.evaluate .strokeWidth c
  rw [ParsedStyle.evaluate_lower sound ran, ParsedStyle.evaluate_lower sound' ran'] at evaluated
  have quotients : (Scalar.one / Scalar.zero : Double) = Scalar.one / -Scalar.zero :=
    Value.number.inj (Except.ok.inj evaluated)
  revert quotients
  decide +kernel

end CompiledStyle

end MapStyle
