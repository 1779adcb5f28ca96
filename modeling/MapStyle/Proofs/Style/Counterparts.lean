import MapStyle.Proofs.Style.Abreast
import MapStyle.Proofs.Style.Scope

/-!
# What styles with one canonical form have in common

Two styles with one canonical form have one layout of uniforms. A program has the same sources in
both when the literals of the properties that its vertex stage works out are told apart by their
words, and a slot of the uniform block holds the same in every frame when the literals and the
defaults it is worked out from are. Literals elsewhere in the styles do not matter.
-/

namespace MapStyle

variable {W N : Type}

/-- A property whose value stands in the vertex source of a kind of program. -/
def StyleProperty.Feeds (property : StyleProperty) (kind : ProgramKind) : Prop :=
  property = .filter ∨ property.program? = some kind

namespace ParsedStyle

variable [Scalar W] [Scalar.Coded W] [Scalar N]

/-- The literals of a property in one style are told apart from those in another. -/
def ApartAt (style other : ParsedStyle W N) (property : StyleProperty) : Prop :=
  ∀ e f, (property, e) ∈ style.properties → (property, f) ∈ other.properties →
    Value.Apart e.literals f.literals

/-- The default of a variable in one style is told apart from that in another. -/
def DefaultApart (style other : ParsedStyle W N) (name : String) : Prop :=
  ∀ u v, style.bindings.get? name = some u → other.bindings.get? name = some v →
    Value.Apart [u] [v]

/-- The literals and the defaults from which a source of the uniform block is worked out are told
apart. -/
def ApartFor (style other : ParsedStyle W N) : UniformSource → Prop
  | .frame (.styleVariable name) => style.DefaultApart other name
  | .frame _ => True
  | .property property => style.ApartAt other property ∧
    ∀ e, (property, e) ∈ style.properties → ∀ name type,
      .input (.styleVariable name) type ∈ e.nodes → style.DefaultApart other name

end ParsedStyle

/-! ## Programs -/

section Programs

variable [Scalar W] [Scalar N] [Precision W N]

namespace ProgramInputs

variable {inputs inputs' : ProgramInputs W N}

omit [Precision W N] in
theorem inputLines_congr (plans : inputs.plan.canonical = inputs'.plan.canonical) :
    inputs.inputLines = inputs'.inputLines := by
  have lines (inputs : ProgramInputs W N) :
      inputs.inputLines = inputLines { inputs with plan := inputs.plan.canonical } := by
    simp only [inputLines, Plan.canonical, List.zipIdx_map, List.map_map]
    rfl
  rw [lines inputs, lines inputs', plans]
  rfl

theorem unpackLines_congr (plans : inputs.plan.canonical = inputs'.plan.canonical) :
    inputs.unpackLines = inputs'.unpackLines := by
  have lines (inputs : ProgramInputs W N) :
      inputs.unpackLines = unpackLines { inputs with plan := inputs.plan.canonical } := by
    simp only [unpackLines, Plan.canonical, List.map_map]
    rfl
  rw [lines inputs, lines inputs', plans]
  rfl

omit [Precision W N] in
theorem needsColorUnpack_congr (plans : inputs.plan.canonical = inputs'.plan.canonical) :
    inputs.plan.needsColorUnpack = inputs'.plan.needsColorUnpack := by
  have colors (plan : Plan W N) : plan.needsColorUnpack = plan.canonical.needsColorUnpack := by
    rw [Plan.needsColorUnpack, Plan.needsColorUnpack, Plan.canonical, List.any_map]
    rfl
  rw [colors, plans, ← colors]

/-- A program is written from the values of the properties that feed it, from the uniforms, and from
the plan up to the literals of its sources. -/
theorem program_congr (header : inputs.header = inputs'.header)
    (plans : inputs.plan.canonical = inputs'.plan.canonical)
    (uniforms : inputs.uniforms = inputs'.uniforms) {kind : ProgramKind}
    (values : ∀ property : StyleProperty, property.Feeds kind →
      inputs.values.lookup property = inputs'.values.lookup property) :
    inputs.program kind = inputs'.program kind := by
  have value_eq (property : StyleProperty) (feeds : property.Feeds kind) :
      inputs.value property = inputs'.value property := by
    rw [value, value, values property feeds]
  have filter : inputs.filterSource = inputs'.filterSource := by
    rw [filterSource, filterSource, value_eq .filter (.inl rfl)]
  have body : inputs.bodyLines kind = inputs'.bodyLines kind := by
    have source_eq (property : StyleProperty) (fed : property.program? = some kind) :
        inputs.valueSource property = inputs'.valueSource property := by
      rw [valueSource, valueSource, value_eq property (.inr fed)]
    cases kind with
    | fill => simp only [bodyLines, source_eq .fillColor rfl]
    | stroke => simp only [bodyLines, source_eq .strokeWidth rfl, source_eq .strokeColor rfl]
    | symbol =>
      simp only [bodyLines, source_eq .circleRadius rfl, source_eq .circleStrokeWidth rfl,
        source_eq .circleFillColor rfl, source_eq .circleStrokeColor rfl,
        source_eq .circleOpacity rfl]
  simp only [program, vertexLines, fragmentLines, header, uniforms, inputLines_congr plans,
    unpackLines_congr plans, needsColorUnpack_congr plans, filter, body]

end ProgramInputs

namespace CompiledProperty

omit [Scalar W] [Scalar N] [Precision W N] in
/-- The first property of a list is looked at first. -/
theorem lookup_cons (p : CompiledProperty W N) (rest : List (CompiledProperty W N))
    (property : StyleProperty) :
    ((p :: rest).filterMap fun p => p.shader.map (p.property, ·)).lookup property =
      if p.property = property ∧ p.shader.isSome then p.shader
      else (rest.filterMap fun p => p.shader.map (p.property, ·)).lookup property := by
  cases value : p.shader with
  | none => simp [value]
  | some s =>
    by_cases named : p.property = property
    · simp [value, named]
    · have other : (property == p.property) = false := beq_false_of_ne (Ne.symm named)
      simp [value, named, List.lookup_cons, other]

omit [Precision W N] in
/-- The shader value of a property is the same in two styles that have the same expression where
it counts. -/
theorem lookup_alike {ps qs : List (CompiledProperty W N)} (alike : List.Forall₂ Alike ps qs)
    {property : StyleProperty}
    (same : ∀ p ∈ ps, ∀ q ∈ qs, Alike p q → p.property = property → p.tier = .inline →
      p.expr = q.expr) :
    (ps.filterMap fun p => p.shader.map (p.property, ·)).lookup property =
      (qs.filterMap fun p => p.shader.map (p.property, ·)).lookup property := by
  induction alike with
  | nil => rfl
  | @cons p q ps qs first _ ih =>
    have rest := ih fun p inRest q inRest' =>
      same p (List.mem_cons_of_mem _ inRest) q (List.mem_cons_of_mem _ inRest')
    rw [lookup_cons, lookup_cons, rest, ← first.property]
    by_cases named : p.property = property
    · rw [first.shader (same p List.mem_cons_self q List.mem_cons_self first named)]
    · simp [named]

end CompiledProperty

end Programs

/-! ## Styles -/

namespace ParsedStyle

variable [Scalar W] [Scalar N] [Precision W N] {style other : ParsedStyle W N}

/-- A compiled property has the expression and the tier of the property it was compiled from. -/
theorem mem_of_compiled (sound : style.Sound) {compiled : CompiledStyle W N}
    (ran : style.lower = .ok compiled) {p : CompiledProperty W N}
    (member : p ∈ compiled.properties) :
    (p.property, p.expr) ∈ style.properties ∧ p.tier = Tier.of p.property p.expr := by
  obtain ⟨-, -, -, -, -, -, compiles⟩ := lower_eq_ok sound ran
  obtain ⟨entry, inStyle, compiled⟩ := exists_compiles compiles member
  rw [compiled.property, compiled.expr]
  exact ⟨inStyle, compiled.tier⟩

omit [Scalar W] [Scalar N] [Precision W N] in
theorem mem_of_found {entries : List (StyleProperty × Expr W N)} {property : StyleProperty}
    {entry : StyleProperty × Expr W N} (found : entries.find? (·.1 = property) = some entry) :
    (property, entry.2) ∈ entries := by
  have named : entry.1 = property := by simpa using List.find?_some found
  exact named ▸ List.mem_of_find?_eq_some found

section

variable [Scalar.Coded W] [Color.Stepped N] (same : style.canonical = other.canonical)

include same

omit [Precision W N] in
theorem get?_bindings_of_canonical {name : String} (apart : style.DefaultApart other name) :
    style.bindings.get? name = other.bindings.get? name := by
  have defaults := congrArg (fun s => s.bindings.get? name) same
  simp only [canonical, Dictionary.get?_map] at defaults
  cases first : style.bindings.get? name with
  | none =>
    rw [first, Option.map_none, eq_comm, Option.map_eq_none_iff] at defaults
    exact defaults.symm
  | some u =>
    rw [first, Option.map_some, eq_comm, Option.map_eq_some_iff] at defaults
    obtain ⟨v, second, alike⟩ := defaults
    rw [second, (apart u v first second).eq_of_canonical List.mem_cons_self List.mem_cons_self
      alike.symm]

omit [Precision W N] in
/-- A property whose literals are told apart has one expression in both styles. -/
theorem find?_of_canonical {property : StyleProperty} (apart : style.ApartAt other property) :
    style.properties.find? (·.1 = property) = other.properties.find? (·.1 = property) := by
  have found := congrArg (List.find? (·.1 = property)) (congrArg properties same)
  rw [canonical, canonical, List.find?_map, List.find?_map] at found
  change (style.properties.find? (·.1 = property)).map _ =
    (other.properties.find? (·.1 = property)).map _ at found
  cases first : style.properties.find? (·.1 = property) with
  | none =>
    rw [first, Option.map_none, eq_comm, Option.map_eq_none_iff] at found
    exact found.symm
  | some entry =>
    rw [first, Option.map_some, eq_comm, Option.map_eq_some_iff] at found
    obtain ⟨entry', second, alike⟩ := found
    obtain ⟨name, expr⟩ := Prod.mk.inj alike
    have expr_eq := Expr.eq_of_literals_apart (apart _ _ (mem_of_found first) (mem_of_found second))
      expr.symm
    rw [second, Prod.ext name.symm expr_eq]

end

section Canonical

variable (sound : style.Sound) (sound' : other.Sound) (same : style.canonical = other.canonical)
  {compiled compiled' : CompiledStyle W N} (ran : style.lower = .ok compiled)
  (ran' : other.lower = .ok compiled')

include sound sound' same ran ran'

theorem plan_of_canonical : compiled.plan.canonical = compiled'.plan.canonical := by
  obtain ⟨requests, made, planned, -⟩ := lower_eq_ok sound ran
  obtain ⟨requests', made', planned', -⟩ := lower_eq_ok sound' ran'
  rw [planned, planned']
  exact plan_canonical sound sound' same made made'

/-- Styles with one canonical form declare one layout, and compile their properties side by side. -/
theorem uniforms_of_canonical : compiled.uniforms = compiled'.uniforms ∧
    List.Forall₂ CompiledProperty.Alike compiled.properties compiled'.properties := by
  obtain ⟨-, -, -, run, -⟩ := run_of_lower ran
  obtain ⟨-, -, -, run', -⟩ := run_of_lower ran'
  have abreast := abreast_compiledProperties (paired_of_canonical sound sound' same)
    (plan_of_canonical sound sound' same ran ran') UniformLayout.initial
  rw [run, run'] at abreast
  obtain ⟨grown, ends⟩ := abreast
  cases ends with
  | ok alike => exact ⟨grown, alike⟩

variable [Scalar.Coded W] [Color.Stepped N]

/-- A program has one source in both styles when the literals of what its vertex stage works out
are told apart. -/
theorem program_of_canonical (hash : style.hash = other.hash) {kind : ProgramKind}
    (apart : ∀ property e, property.Feeds kind → (property, e) ∈ style.properties →
      Tier.of property e = .inline → style.ApartAt other property) :
    compiled.programInputs.program kind = compiled'.programInputs.program kind := by
  obtain ⟨uniforms, alike⟩ := uniforms_of_canonical sound sound' same ran ran'
  refine ProgramInputs.program_congr ?_ (plan_of_canonical sound sound' same ran ran') uniforms
    fun property feeds => CompiledProperty.lookup_alike alike ?_
  · rw [CompiledStyle.programInputs, CompiledStyle.programInputs, hash_lower ran, hash_lower ran',
      hash]
  · rintro p member q member' alike rfl inline
    obtain ⟨inStyle, tier⟩ := mem_of_compiled sound ran member
    obtain ⟨inOther, -⟩ := mem_of_compiled sound' ran' member'
    rw [← alike.property] at inOther
    exact Expr.eq_of_literals_apart (apart p.property p.expr feeds inStyle (tier ▸ inline) _ _
      inStyle inOther) alike.canonical

theorem frameVariables_of_canonical {name : String} (apart : style.DefaultApart other name)
    (frame : Frame W N) :
    (compiled.frameVariables frame).get? name = (compiled'.frameVariables frame).get? name := by
  obtain ⟨-, -, -, bindings, -⟩ := lower_eq_ok sound ran
  obtain ⟨-, -, -, bindings', -⟩ := lower_eq_ok sound' ran'
  rw [CompiledStyle.get?_frameVariables, CompiledStyle.get?_frameVariables, bindings, bindings',
    get?_bindings_of_canonical same apart]

/-- A property has one value in a frame of either style when its literals and the defaults of the
variables that it reads are told apart. -/
theorem evaluate_frame_of_canonical {property : StyleProperty}
    (apart : style.ApartFor other (.property property)) (frame : Frame W N) :
    compiled.evaluate property (compiled.frameContext frame) =
      compiled'.evaluate property (compiled'.frameContext frame) := by
  obtain ⟨literals, defaults⟩ := apart
  obtain ⟨-, -, -, -, externals, -⟩ := lower_eq_ok sound ran
  obtain ⟨-, -, -, -, externals', -⟩ := lower_eq_ok sound' ran'
  have callbacks : style.externals = other.externals := (congrArg ParsedStyle.externals same :)
  rw [evaluate_lower sound ran, evaluate_lower sound' ran', ← find?_of_canonical same literals]
  cases found : style.properties.find? (·.1 = property) with
  | none => rfl
  | some entry =>
    refine Expr.evaluate_congr entry.2 fun node inNodes read => ?_
    cases node with
    | input source type =>
      cases source with
      | styleVariable name =>
        have shown := frameVariables_of_canonical sound sound' same ran ran'
          (defaults entry.2 (mem_of_found found) name type inNodes) frame
        simp only [Expr.evaluate, Context.read, CompiledStyle.frameContext, shown]
      | zoom | resolution | time => rfl
    | property name type => rfl
    | external id type =>
      simp only [Expr.evaluate, CompiledStyle.frameContext, externals, externals', callbacks]
    | _ => cases read

/-- A source of the uniform block has one value in both styles when what it is worked out from is
told apart. -/
theorem uniformValue_of_canonical {source : UniformSource} (apart : style.ApartFor other source)
    (frame : Frame W N) :
    compiled.uniformValue (compiled.frameContext frame) source =
      compiled'.uniformValue (compiled'.frameContext frame) source := by
  cases source with
  | frame input =>
    cases input with
    | styleVariable name =>
      have shown := frameVariables_of_canonical sound sound' same ran ran' apart frame
      simp only [CompiledStyle.uniformValue, CompiledStyle.frameContext, shown]
    | zoom | resolution | time => rfl
  | property property =>
    simp only [CompiledStyle.uniformValue,
      evaluate_frame_of_canonical sound sound' same ran ran' apart frame]

end Canonical

end ParsedStyle

end MapStyle
