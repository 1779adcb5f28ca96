import MapStyle.Cache.Style
import MapStyle.Proofs.Style.Interchangeable

/-!
# A cache of compiled styles is not noticed

Every style in the cache was compiled from one of the styles that were asked for. As long as the
digests tell these apart, the answers of the cache are those that compiling every specification
anew would give, refusals included.
-/

namespace MapStyle

namespace StyleCache

variable {W N : Type} [Scalar W] [Scalar N] [Precision W N]

/-- Every style in the cache was compiled from one of some styles of its digest. -/
def Holds (cache : StyleCache W N) (asked : List (ParsedStyle W N)) : Prop :=
  ∀ hash shared, cache.lookup hash = some shared →
    ∃ style ∈ asked, style.hash = hash ∧ style.lower = .ok shared.style

variable {cache : StyleCache W N} {asked : List (ParsedStyle W N)} {style : ParsedStyle W N}

theorem holds_empty (asked : List (ParsedStyle W N)) : (empty : StyleCache W N).Holds asked := by
  intro hash shared found
  cases found

theorem Holds.cons (holds : cache.Holds asked) (style : ParsedStyle W N) :
    cache.Holds (style :: asked) := by
  intro hash shared found
  obtain ⟨other, member, established⟩ := holds hash shared found
  exact ⟨other, List.mem_cons_of_mem style member, established⟩

/-- Putting in what a style compiled to. -/
theorem Holds.insert (holds : cache.Holds asked) (member : style ∈ asked)
    {shared : SharedStyle W N} (ran : style.lower = .ok shared.style) :
    (cache.insert style.hash shared).1.Holds asked := by
  unfold StyleCache.insert
  split
  next => exact holds
  next =>
    intro hash other found
    rw [lookup, List.lookup_cons] at found
    split at found
    next same =>
      cases found
      exact ⟨style, member, (eq_of_beq same).symm, ran⟩
    next => exact holds hash other found

/-- Taking a style out. -/
theorem Holds.remove (holds : cache.Holds asked) (hash : UInt64) :
    (cache.remove hash).1.Holds asked := by
  intro other shared found
  refine holds other shared ?_
  have kept : other ≠ hash := by
    rintro rfl
    obtain ⟨-, kept⟩ := List.mem_filter.1 (mem_of_lookup found)
    exact of_decide_eq_true kept rfl
  exact (lookup_filter_ne kept cache.styles).symm.trans found

/-- Styles of one digest have the same words, callbacks and values. -/
def ToldApart (styles : List (ParsedStyle W N)) : Prop :=
  ∀ a ∈ styles, ∀ b ∈ styles, a.hash = b.hash →
    a.words = b.words ∧ a.externals.Agree b.externals ∧ Value.Apart a.values b.values

/-- The answers to specifications that are asked for one after another. -/
def serve (cache : StyleCache W N) : List (StyleSpec W N) →
    List (Except CompileError (SharedStyle W N))
  | [] => []
  | spec :: rest => (cache.getOrCompile spec).2 :: serve (cache.getOrCompile spec).1 rest

variable [Scalar.Coded W] [Color.Stepped N]

omit [Precision W N] in
theorem ToldApart.eq_of_hash (apart : ToldApart asked) {a b : ParsedStyle W N} (inAsked : a ∈ asked)
    (inAsked' : b ∈ asked) (same : a.hash = b.hash) : a = b := by
  obtain ⟨words, agree, values⟩ := apart a inAsked b inAsked' same
  exact ParsedStyle.eq_of_canonical values (ParsedStyle.canonical_of_words agree words)

/-- A style that is found for a digest is what every style of the digest compiles to. -/
theorem Holds.lower_eq (holds : cache.Holds asked) (apart : ToldApart asked)
    (member : style ∈ asked) {shared : SharedStyle W N}
    (found : cache.lookup style.hash = some shared) :
    style.lower = .ok shared.style := by
  obtain ⟨other, inAsked, sameHash, ran⟩ := holds style.hash shared found
  obtain rfl := apart.eq_of_hash inAsked member sameHash
  exact ran

/-- Whichever of several requests for a digest puts its style in first, the others get the style
they have compiled themselves. -/
theorem Holds.insert_eq (holds : cache.Holds asked) (apart : ToldApart asked)
    (member : style ∈ asked) {shared : SharedStyle W N} (ran : style.lower = .ok shared.style) :
    style.lower = .ok (cache.insert style.hash shared).2.style := by
  rw [StyleCache.insert]
  cases found : cache.lookup style.hash with
  | some resident => exact holds.lower_eq apart member found
  | none => exact ran

/-- One answer is what the specification compiles to, and the cache still holds nothing but what
was asked for. -/
theorem getOrCompile_eq {spec : StyleSpec W N} (holds : cache.Holds asked) (apart : ToldApart asked)
    (member : ∀ style, ParsedStyle.ofSpec spec = .ok style → style ∈ asked) :
    (cache.getOrCompile spec).2.map SharedStyle.style = CompiledStyle.ofSpec spec ∧
      (cache.getOrCompile spec).1.Holds asked := by
  rw [getOrCompile, CompiledStyle.ofSpec]
  cases parsed : ParsedStyle.ofSpec spec with
  | error e => exact ⟨rfl, holds⟩
  | ok style =>
    have inAsked := member style parsed
    cases found : cache.lookup style.hash with
    | some shared =>
      simp only [found]
      exact ⟨(holds.lower_eq apart inAsked found).symm, holds⟩
    | none =>
      simp only [found]
      cases ran : style.lower with
      | error e => exact ⟨ran.symm, holds⟩
      | ok own =>
        have shared : (cache.share own).1.Holds asked := holds
        exact ⟨(shared.insert_eq apart inAsked ran).symm, shared.insert inAsked ran⟩

/-- Whoever asks for specifications one after another gets what each of them compiles to. -/
theorem serve_eq (specs : List (StyleSpec W N))
    (apart : ToldApart (specs.filterMap fun spec => (ParsedStyle.ofSpec spec).toOption)) :
    (serve empty specs).map (Except.map SharedStyle.style) = specs.map CompiledStyle.ofSpec := by
  have run (asked : List (ParsedStyle W N)) (apart : ToldApart asked) (cache : StyleCache W N)
      (holds : cache.Holds asked) (specs : List (StyleSpec W N))
      (each : ∀ spec ∈ specs, ∀ style, ParsedStyle.ofSpec spec = .ok style → style ∈ asked) :
      (serve cache specs).map (Except.map SharedStyle.style) = specs.map CompiledStyle.ofSpec := by
    induction specs generalizing cache with
    | nil => rfl
    | cons spec rest ih =>
      obtain ⟨ofFirst, ofRest⟩ := List.forall_mem_cons.1 each
      obtain ⟨answer, holds⟩ := getOrCompile_eq holds apart ofFirst
      rw [serve, List.map_cons, List.map_cons, answer, ih _ holds ofRest]
  refine run _ apart empty (holds_empty _) specs fun spec member style parsed => ?_
  exact List.mem_filterMap.2 ⟨spec, member, by rw [parsed]; rfl⟩

end StyleCache

end MapStyle
