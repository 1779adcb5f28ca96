import MapStyle.Proofs.Style.Compiled

/-!
# When a style cannot be compiled

A feature property has one attribute, so all code in the shader has to read it as one type. This
is the only demand that compiling adds to parsing: a parsed style compiles unless two reads in
the vertex stage disagree, and then the error says so. Nothing else that compiling could report
comes about, because parsing has typed every property and tiers keep from the shader what it
cannot compute.
-/

namespace MapStyle

namespace ParsedStyle

variable {W N : Type}

/-- Some property that is computed in the vertex stage reads a feature property as a type. -/
def ReadsInline (style : ParsedStyle W N) (name : String) (type : ValueType) : Prop :=
  ∃ entry ∈ style.properties, Tier.of entry.1 entry.2 = .inline ∧
    (name, type) ∈ entry.2.dependencies.properties

/-- The error of a property in the vertex stage that reads a feature property as a type, where
the vertex stage also reads it as another one. -/
def Conflict (style : ParsedStyle W N) (e : CompileError) : Prop :=
  ∃ entry ∈ style.properties, Tier.of entry.1 entry.2 = .inline ∧
    ∃ name known type, (name, type) ∈ entry.2.dependencies.properties ∧
      style.ReadsInline name known ∧ known ≠ type ∧
      e = .expression entry.1.name (.typeMismatch "get" known.name type)

/-- Every type in the table is one that some property in the vertex stage reads. -/
def Requests.Traced (style : ParsedStyle W N) (r : Requests W N) : Prop :=
  ∀ name type, r.types.lookup name = some type → style.ReadsInline name type

variable {style : ParsedStyle W N} [Scalar W]

/-! ## Requests -/

theorem settles_requestProperty {r : Requests W N} (traced : r.Traced style)
    {entry : StyleProperty × Expr W N} (member : entry ∈ style.properties)
    (tier : Tier.of entry.1 entry.2 = .inline) {name : String} {type : ValueType}
    (read : (name, type) ∈ entry.2.dependencies.properties) :
    Settles (Requests.Traced style) style.Conflict
      (style.requestProperty entry.1 r name type) := by
  unfold requestProperty
  split
  next known found =>
    split
    next same => exact traced
    next different =>
      exact ⟨entry, member, tier, name, known, type, read, traced name known found, different, rfl⟩
  next unknown =>
    intro other otherType found
    rw [List.lookup_append] at found
    cases before : r.types.lookup other with
    | some known =>
      rw [before] at found
      exact traced other otherType (before.trans found)
    | none =>
      rw [before] at found
      have same : (other, otherType) = (name, type) := List.mem_singleton.1 (mem_of_lookup found)
      cases same
      exact ⟨entry, member, tier, read⟩

theorem settles_requestFor {r : Requests W N} (traced : r.Traced style)
    {entry : StyleProperty × Expr W N} (member : entry ∈ style.properties) :
    Settles (Requests.Traced style) style.Conflict (style.requestFor r entry.1 entry.2) := by
  unfold requestFor
  split
  next tier => exact traced
  next tier =>
    refine Settles.foldlM (fun before read inReads kept => ?_) traced
    exact settles_requestProperty kept member tier inReads
  all_goals exact traced

/-- The requests of a style are made, or two reads of the vertex stage disagree. -/
theorem conflict_of_requests {e : CompileError} (failed : style.requests = .error e) :
    style.Conflict e := by
  have settled : Settles (Requests.Traced style) style.Conflict
      (style.properties.foldlM (fun r entry => style.requestFor r entry.1 entry.2) ⟨[], []⟩) :=
    Settles.foldlM (fun r entry member traced => settles_requestFor traced member)
      (fun _ _ known => nomatch known)
  unfold requests at failed
  cases ran : style.properties.foldlM
      (fun r entry => style.requestFor r entry.1 entry.2) (⟨[], []⟩ : Requests W N) with
  | ok r =>
    rw [ran] at failed
    cases failed
  | error other =>
    rw [ran] at failed settled
    cases failed
    exact settled

/-- Once the requests are made, all reads of the vertex stage agree. -/
theorem eq_of_readsInline {requests : List (AttributeRequest W N)}
    (made : style.requests = .ok requests) {name : String} {known type : ValueType}
    (first : style.ReadsInline name known) (second : style.ReadsInline name type) :
    known = type := by
  obtain ⟨r, -, -, served⟩ := requests_eq_ok made
  have table {name : String} {type : ValueType} (read : style.ReadsInline name type) :
      r.types.lookup name = some type := by
    obtain ⟨entry, member, tier, inReads⟩ := read
    exact (served entry member).inline tier (name, type) inReads
  exact Option.some.inj ((table first).symm.trans (table second))

/-! ## Styles -/

variable [Scalar N] [Precision W N]

/-- Of a well-typed style, nothing but the requests can fail to compile. -/
theorem lower_eq_error_iff (sound : style.Sound) {e : CompileError} :
    style.lower = .error e ↔ style.requests = .error e := by
  cases made : style.requests with
  | ok requests =>
    obtain ⟨compiled, ran, -⟩ := exists_lower sound made
    rw [ran]
    constructor
    · intro failed
      cases failed
    · intro failed
      cases failed
  | error other =>
    have failed : style.lower = .error other := by
      unfold lower
      rw [made]
      rfl
    rw [failed, Except.error.injEq, Except.error.injEq]

/-- A parsed style fails to compile exactly when the vertex stage reads one feature property as
two types, and the error is that of a property which reads it as one of the two: it expected the
other type of a `get`. -/
theorem lower_fails_iff_conflict [Scalar.Ordered W] {spec : StyleSpec W N}
    (parsed : ofSpec spec = .ok style) :
    ((∃ e, style.lower = .error e) ↔ ∃ name known type, known ≠ type ∧
      style.ReadsInline name known ∧ style.ReadsInline name type) ∧
    ∀ e, style.lower = .error e → style.Conflict e := by
  have sound := sound_ofSpec parsed
  have conflicting (e : CompileError) (failed : style.lower = .error e) : style.Conflict e :=
    conflict_of_requests ((lower_eq_error_iff sound).1 failed)
  refine ⟨⟨?_, ?_⟩, conflicting⟩
  · rintro ⟨e, failed⟩
    obtain ⟨entry, member, tier, name, known, type, read, other, different, -⟩ :=
      conflicting e failed
    exact ⟨name, known, type, different, other, entry, member, tier, read⟩
  · rintro ⟨name, known, type, different, first, second⟩
    cases made : style.requests with
    | ok requests => exact absurd (eq_of_readsInline made first second) different
    | error e => exact ⟨e, (lower_eq_error_iff sound).2 made⟩

/-- A radius that is the number `k`, and a width that depends on the string `k`. -/
def mixedReads : StyleSpec Double Single :=
  { StyleSpec.empty with
    properties := (Dictionary.empty.insert "circle-radius"
      (.array [.string "get", .string "k"])).insert "stroke-width"
      (.array [.string "case",
        .array [.string "==", .array [.string "get", .string "k"], .string "a"],
        .number (.integer 1), .number (.integer 0)]) }

/-- The width is compiled first, so the error is that of the radius. -/
theorem mixedReads_fails :
    ∃ style, ofSpec mixedReads = .ok style ∧ style.ReadsInline "k" .string ∧
      style.ReadsInline "k" .number ∧ ∃ e, style.lower = .error e ∧ style.Conflict e ∧
        e = .expression "circle-radius" (.typeMismatch "get" "string" .number) := by
  obtain ⟨style, parsed, string, number⟩ : ∃ style, ofSpec mixedReads = .ok style ∧
      style.ReadsInline "k" .string ∧ style.ReadsInline "k" .number := by
    refine ⟨_, rfl, ?_, ?_⟩
    · exact ⟨_, List.mem_cons_self, by decide, by decide⟩
    · exact ⟨_, List.mem_cons_of_mem _ List.mem_cons_self, by decide, by decide⟩
  obtain ⟨fails, conflicts⟩ := lower_fails_iff_conflict parsed
  obtain ⟨e, failed⟩ := fails.2 ⟨"k", .string, .number, by decide, string, number⟩
  refine ⟨style, parsed, string, number, e, failed, conflicts e failed, ?_⟩
  cases parsed
  cases failed
  rfl

end ParsedStyle

end MapStyle
