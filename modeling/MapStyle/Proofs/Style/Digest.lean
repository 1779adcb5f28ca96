import MapStyle.Proofs.Expr.Digest
import MapStyle.Proofs.Style.Canonical

/-!
# The digest of a style

Two styles with the same words have one canonical form. The schema and the callbacks follow each
other without a count: what tells where the schema ends is that a declaration writes at least
three numbers after its name and its type, and a callback writes two words of which the second
is the last one before the next name.
-/

namespace MapStyle

variable {W N : Type}

/-! ## Callbacks -/

/-- What a digest takes of a callback. -/
def External.identity (e : External W N) : String × ValueType × Nat := (e.name, e.type, e.serial)

/-- Callbacks with one serial are one function. -/
def Registry.Agree (first second : Registry W N) : Prop :=
  ∀ e ∈ first.entries, ∀ f ∈ second.entries, e.serial = f.serial → e.call = f.call

theorem Registry.agree_empty (registry : Registry W N) : Registry.empty.Agree registry := by
  intro e member
  cases member

theorem readable_external (e : External W N) : Readable External.words External.identity e := by
  intro f r s same
  simp only [External.words, List.append_assoc, List.cons_append, List.nil_append] at same
  obtain ⟨name, same⟩ := readable_string e.name f.name _ _ same
  simp only [List.cons.injEq] at same
  obtain ⟨type, serial, rest⟩ := same
  refine ⟨?_, rest⟩
  rw [External.identity, External.identity, show e.name = f.name from name,
    ValueType.word_injective type, Word.number.inj serial]

theorem Registry.eq_of_identities {first second : Registry W N} (agree : first.Agree second)
    (same : first.entries.map External.identity = second.entries.map External.identity) :
    first = second := by
  obtain ⟨es⟩ := first
  obtain ⟨fs⟩ := second
  refine congrArg Registry.mk (eq_of_map_eq same fun e inFirst f inSecond identity => ?_)
  obtain ⟨name, type, call, serial⟩ := e
  obtain ⟨name', type', call', serial'⟩ := f
  cases identity
  have call_eq : call = call' := agree _ inFirst _ inSecond rfl
  rw [call_eq]

/-! ## Schemas and callbacks -/

/-- No callback begins with a number. -/
theorem externals_ne_number (externals : List (External W N)) (n : Nat) (r : List Word) :
    externals.flatMap External.words ≠ .number n :: r := by
  intro same
  cases externals with
  | nil => cases same
  | cons => cases (List.cons.inj same).1

theorem eq_of_externals {es fs : List (External W N)}
    (same : es.flatMap External.words = fs.flatMap External.words) :
    es.map External.identity = fs.map External.identity := by
  induction es generalizing fs with
  | nil =>
    cases fs with
    | nil => rfl
    | cons => cases same
  | cons e es ih =>
    cases fs with
    | nil => cases same
    | cons f fs =>
      obtain ⟨first, rest⟩ := readable_external e f _ _ same
      rw [List.map_cons, List.map_cons, first, ih rest]

variable [Scalar W]

/-- What a declared feature property contributes to a digest. -/
def Schema.entryWords (entry : String × Declaration W) : List Word :=
  Word.ofString entry.1 ++ entry.2.words

/-- A declaration writes a mark for either bound after its type. -/
theorem exists_words_eq (d : Declaration W) :
    ∃ m n r, d.words = d.type.word :: .number m :: .number n :: r := by
  unfold Declaration.words
  cases d.minimum with
  | none => cases d.maximum <;> exact ⟨_, _, _, rfl⟩
  | some low => exact ⟨_, _, _, rfl⟩

/-- A declaration is not what callbacks write, whatever follows it. -/
theorem declaration_ne_externals (entry : String × Declaration W) (r : List Word)
    (externals : List (External W N)) :
    Schema.entryWords entry ++ r ≠ externals.flatMap External.words := by
  intro same
  cases externals with
  | nil => cases same
  | cons e rest =>
    rw [List.flatMap_cons, Schema.entryWords, External.words, List.append_assoc,
      List.append_assoc] at same
    obtain ⟨-, same⟩ := readable_string entry.1 e.name _ _ same
    obtain ⟨m, n, s, words⟩ := exists_words_eq entry.2
    rw [words] at same
    simp only [List.cons_append, List.nil_append, List.cons.injEq] at same
    obtain ⟨-, -, same⟩ := same
    exact externals_ne_number rest n (s ++ r) same.symm

variable [Scalar.Coded W]

theorem readable_entry (entry : String × Declaration W) : Readable Schema.entryWords id entry :=
  (readable_string entry.1).pair (readable_declaration entry.2)

/-- A schema and the callbacks after it are told apart. -/
theorem eq_of_entries {xs ys : List (String × Declaration W)} {es fs : List (External W N)}
    (same : xs.flatMap Schema.entryWords ++ es.flatMap External.words =
      ys.flatMap Schema.entryWords ++ fs.flatMap External.words) :
    xs = ys ∧ es.map External.identity = fs.map External.identity := by
  induction xs generalizing ys with
  | nil =>
    cases ys with
    | nil => exact ⟨rfl, eq_of_externals same⟩
    | cons y ys =>
      rw [List.flatMap_cons, List.append_assoc] at same
      exact absurd same.symm (declaration_ne_externals y _ es)
  | cons x xs ih =>
    rw [List.flatMap_cons, List.append_assoc] at same
    cases ys with
    | nil => exact absurd same (declaration_ne_externals x _ fs)
    | cons y ys =>
      rw [List.flatMap_cons, List.append_assoc] at same
      obtain ⟨first, same⟩ := readable_entry x y _ _ same
      obtain ⟨rest, externals⟩ := ih same
      exact ⟨congrArg₂ List.cons first rest, externals⟩

/-- What an optional schema contributes to the digest of a style. -/
def Schema.optionWords : Option (Schema W) → List Word
  | none => [.number 0]
  | some schema => .number 1 :: schema.words

theorem eq_of_schemas {schema schema' : Option (Schema W)} {registry registry' : Registry W N}
    (agree : registry.Agree registry')
    (same : Schema.optionWords schema ++ registry.words =
      Schema.optionWords schema' ++ registry'.words) :
    schema = schema' ∧ registry = registry' := by
  cases schema with
  | none =>
    cases schema' with
    | none => exact ⟨rfl, Registry.eq_of_identities agree (eq_of_externals (List.cons.inj same).2)⟩
    | some => cases (List.cons.inj same).1
  | some schema =>
    cases schema' with
    | none => cases (List.cons.inj same).1
    | some schema' =>
      obtain ⟨entries, externals⟩ := eq_of_entries (List.cons.inj same).2
      exact ⟨congrArg some (Dictionary.eq_of_entries entries),
        Registry.eq_of_identities agree externals⟩

/-! ## Styles -/

namespace StyleProperty

theorem ofName?_name (property : StyleProperty) : ofName? property.name = some property := by
  cases property <;> decide

theorem name_injective {property other : StyleProperty} (same : property.name = other.name) :
    property = other := by
  have both : ofName? property.name = ofName? other.name := congrArg ofName? same
  rw [ofName?_name, ofName?_name] at both
  exact Option.some.inj both

end StyleProperty

theorem readable_name (property : StyleProperty) :
    Readable (fun property : StyleProperty => Word.ofString property.name) id property := by
  intro other r s same
  obtain ⟨name, rest⟩ := readable_string property.name other.name _ _ same
  exact ⟨StyleProperty.name_injective name, rest⟩

variable [Scalar N]

namespace ParsedStyle

omit [Scalar.Coded W] in
/-- The parts of a style one after another, the properties and the variables counted. -/
theorem words_eq (style : ParsedStyle W N) : style.words =
    .number style.properties.length ::
      (style.properties.flatMap fun entry => Word.ofString entry.1.name ++ entry.2.words) ++
    (.number style.bindings.entries.length ::
      (style.bindings.entries.flatMap fun entry => Word.ofString entry.1 ++ entry.2.words) ++
    (Schema.optionWords style.schema ++ style.externals.words)) := by
  unfold words Schema.optionWords
  cases style.schema <;> simp [Dictionary.size]

/-- Styles with the same words have one canonical form. -/
theorem canonical_of_words {style other : ParsedStyle W N}
    (agree : style.externals.Agree other.externals) (same : style.words = other.words) :
    style.canonical = other.canonical := by
  rw [words_eq, words_eq] at same
  obtain ⟨properties, same⟩ := Readable.counted
    (fun entry _ => (readable_name entry.1).pair entry.2.readable) _ _ _ same
  obtain ⟨bindings, same⟩ := Readable.counted
    (fun entry _ => (readable_string entry.1).pair (readable_value entry.2)) _ _ _ same
  obtain ⟨schema, externals⟩ := eq_of_schemas agree same
  have bindings_eq : style.bindings.map (fun _ value => value.canonical) =
      other.bindings.map fun _ value => value.canonical := Dictionary.eq_of_entries bindings
  simp only [id_eq] at properties
  rw [canonical, canonical, properties, bindings_eq, schema, externals]

/-- The words of a style are those of its canonical form. -/
theorem words_canonical [Color.Stepped N] (style : ParsedStyle W N) :
    style.canonical.words = style.words := by
  have properties : (style.properties.flatMap fun entry =>
      Word.ofString entry.1.name ++ entry.2.canonical.words) =
        style.properties.flatMap fun entry => Word.ofString entry.1.name ++ entry.2.words :=
    List.flatMap_congr fun entry _ => by rw [entry.2.words_canonical]
  have bindings : (style.bindings.entries.flatMap fun entry =>
      Word.ofString entry.1 ++ entry.2.canonical.words) =
        style.bindings.entries.flatMap fun entry => Word.ofString entry.1 ++ entry.2.words :=
    List.flatMap_congr fun entry _ => by rw [entry.2.words_canonical]
  simp only [words, canonical, Dictionary.map, Dictionary.size, List.length_map, List.flatMap_map,
    properties, bindings]

/-- A digest takes of a style its canonical form, neither more nor less. -/
theorem words_eq_iff [Color.Stepped N] {style other : ParsedStyle W N}
    (agree : style.externals.Agree other.externals) :
    style.words = other.words ↔ style.canonical = other.canonical := by
  constructor
  · exact canonical_of_words agree
  · intro same
    rw [← style.words_canonical, same, other.words_canonical]

/-! ## Literals that are told apart -/

/-- The literals of a style and the defaults of its variables. -/
def values (style : ParsedStyle W N) : List (Value W N) :=
  style.properties.flatMap (fun entry => entry.2.literals) ++ style.bindings.entries.map Prod.snd

omit [Scalar W] [Scalar.Coded W] [Scalar N] in
theorem literalIn_values {style : ParsedStyle W N} {entry : StyleProperty × Expr W N}
    (member : entry ∈ style.properties) :
    ∀ node ∈ entry.2.nodes, node.LiteralIn style.values := by
  intro node inNodes value isLiteral
  refine List.mem_append_left _ (List.mem_flatMap.2 ⟨entry, member, ?_⟩)
  exact List.mem_filterMap.2 ⟨node, inNodes, isLiteral⟩

/-- Styles with one canonical form are the same when their literals are told apart. -/
theorem eq_of_canonical [Color.Stepped N] {style other : ParsedStyle W N}
    (apart : Value.Apart style.values other.values) (same : style.canonical = other.canonical) :
    style = other := by
  simp only [canonical, mk.injEq] at same
  obtain ⟨properties, bindings, schema, externals⟩ := same
  have properties_eq : style.properties = other.properties := by
    refine eq_of_map_eq properties fun entry member entry' member' sameEntry => ?_
    obtain ⟨property, expr⟩ := Prod.mk.inj sameEntry
    exact Prod.ext property (entry.2.eq_of_canonical apart entry'.2 (literalIn_values member)
      (literalIn_values member') expr)
  have entries_eq : style.bindings.entries = other.bindings.entries := by
    refine eq_of_map_eq (congrArg Dictionary.entries bindings) fun entry member entry' member'
      sameEntry => ?_
    obtain ⟨name, value⟩ := Prod.mk.inj sameEntry
    exact Prod.ext name (apart.eq_of_canonical
      (List.mem_append_right _ (List.mem_map_of_mem member))
      (List.mem_append_right _ (List.mem_map_of_mem member')) value)
  have bindings_eq := Dictionary.eq_of_entries entries_eq
  cases style
  cases other
  cases properties_eq
  cases bindings_eq
  cases schema
  cases externals
  rfl

end ParsedStyle

end MapStyle
