import MapStyle.Proofs.Dictionary
import MapStyle.Proofs.Outcome
import MapStyle.Proofs.Packing.Plan
import MapStyle.Style.Compiled

/-!
# Tiers and what they request

A style property that is computed in the shader has every feature property it reads requested,
each under one type and in one way; one that is evaluated ahead has itself requested. The fold
over the properties of a style keeps the table of types and the requests in step.
-/

namespace MapStyle

variable {W N : Type}

/-- Only a range makes a number its place in the range. -/
theorem Quantization.bounds_of_normalized {type : ValueType} {bounds : Option (W × W)}
    {low high : W} (normalized : Quantization.of type bounds = .normalized low high) :
    bounds = some (low, high) := by
  cases type <;> cases bounds <;> cases normalized <;> rfl

/-! ## Tiers -/

namespace Tier

variable {property : StyleProperty} {e : Expr W N}

theorem shared_of_uniform (tier : Tier.of property e = .uniform) :
    e.isFeatureDependent = false := by
  rw [Tier.of] at tier
  grind

theorem needsInterpreter_of_inline (tier : Tier.of property e = .inline) :
    e.needsInterpreter = false := by
  rw [Tier.of] at tier
  grind

/-- What is computed in the shader calls no host. -/
theorem hostless_of_inline (tier : Tier.of property e = .inline) :
    ∀ node ∈ e.nodes, node.isExternal = false := by
  have inShader := needsInterpreter_of_inline tier
  simp only [Expr.needsInterpreter, Bool.or_eq_false_iff, Expr.dependencies] at inShader
  intro node member
  exact Bool.eq_false_iff.2 fun calls =>
    List.any_eq_false.1 inShader.1.1.1.2 node member calls

end Tier

/-- The properties an expression depends on are those its nodes read. -/
theorem Expr.mem_dependencies {e : Expr W N} {name : String} {type : ValueType} :
    (name, type) ∈ e.dependencies.properties ↔ Expr.property name type ∈ e.nodes := by
  rw [dependencies, List.mem_eraseDups, List.mem_filterMap]
  constructor
  · rintro ⟨node, member, read⟩
    cases node <;> cases read
    exact member
  · intro member
    exact ⟨_, member, rfl⟩

namespace ParsedStyle

namespace Requests

/-- Nothing that is known or requested is forgotten. -/
structure Grows (before after : Requests W N) : Prop where
  types : ∀ name type, before.types.lookup name = some type → after.types.lookup name = some type
  requests : ∀ request ∈ before.requests, request ∈ after.requests

theorem Grows.refl (r : Requests W N) : Grows r r := ⟨fun _ _ => id, fun _ => id⟩

theorem Grows.trans {first second third : Requests W N} (one : Grows first second)
    (two : Grows second third) : Grows first third :=
  ⟨fun name type known => two.types name type (one.types name type known),
    fun request member => two.requests request (one.requests request member)⟩

/-- What the tier of a style property asks for has been requested. -/
structure Serves (r : Requests W N) (entry : StyleProperty × Expr W N) : Prop where
  inline : Tier.of entry.1 entry.2 = .inline → ∀ read ∈ entry.2.dependencies.properties,
    r.types.lookup read.1 = some read.2
  preEvaluated : Tier.of entry.1 entry.2 = .preEvaluated → .ofEvaluated entry.1 entry.2 ∈ r.requests

theorem Serves.grow {before after : Requests W N} {entry : StyleProperty × Expr W N}
    (serves : before.Serves entry) (grows : Grows before after) : after.Serves entry :=
  ⟨fun tier read member => grows.types _ _ (serves.inline tier read member),
    fun tier => grows.requests _ (serves.preEvaluated tier)⟩

/-- What the requests are about. -/
def subjects (r : Requests W N) : List (String ⊕ StyleProperty) :=
  r.requests.map fun request => request.source.subject

/-- One more request for something that was not requested before. -/
theorem nodup_append {r : Requests W N} (nodup : r.subjects.Nodup)
    (request : AttributeRequest W N) (new : request.source.subject ∉ r.subjects)
    (types : List (String × ValueType)) :
    (subjects ⟨r.requests ++ [request], types⟩).Nodup := by
  rw [subjects, List.map_append, List.map_singleton]
  refine List.nodup_append.2 ⟨nodup, List.nodup_singleton _, ?_⟩
  rintro subject member added isAdded rfl
  rw [List.mem_singleton.1 isAdded] at member
  exact new member

theorem mem_subjects_append {r : Requests W N} {request : AttributeRequest W N}
    {types : List (String × ValueType)} {subject : String ⊕ StyleProperty} :
    subject ∈ subjects ⟨r.requests ++ [request], types⟩ ↔
      subject ∈ r.subjects ∨ subject = request.source.subject := by
  rw [subjects, List.map_append, List.map_singleton, List.mem_append, List.mem_singleton]
  rfl

variable [Scalar W]

/-- The requests for feature properties are those of the table of types. -/
structure Consistent (style : ParsedStyle W N) (r : Requests W N) : Prop where
  typed : ∀ request ∈ r.requests, ∀ name, request.source = .property name →
    ∃ type, r.types.lookup name = some type ∧
      request = .ofProperty name type (style.boundsOf name type)
  requested : ∀ name type, r.types.lookup name = some type →
    .ofProperty name type (style.boundsOf name type) ∈ r.requests

theorem consistent_empty (style : ParsedStyle W N) : Consistent style ⟨[], []⟩ where
  typed _ member := nomatch member
  requested _ _ known := nomatch known

end Requests

open Requests

variable {style : ParsedStyle W N} [Scalar W]

/-- Requesting one feature property. -/
theorem requestProperty_eq_ok {property : StyleProperty} {r after : Requests W N} {name : String}
    {type : ValueType} (consistent : Consistent style r)
    (ran : style.requestProperty property r name type = .ok after) :
    Consistent style after ∧ Grows r after ∧ after.types.lookup name = some type := by
  unfold requestProperty at ran
  split at ran
  next known found =>
    split at ran
    next same =>
      cases ran
      exact ⟨consistent, .refl r, same ▸ found⟩
    next => cases ran
  next unknown =>
    cases ran
    have grows (other : String) (known : ValueType) (found : r.types.lookup other = some known) :
        (r.types ++ [(name, type)]).lookup other = some known := by
      rw [List.lookup_append, found]
      rfl
    have added : (r.types ++ [(name, type)]).lookup name = some type := by
      rw [List.lookup_append, unknown]
      simp
    refine ⟨⟨fun request member other ofOther => ?_, fun other known found => ?_⟩,
      ⟨grows, fun request => List.mem_append_left _⟩, added⟩
    · rcases List.mem_append.1 member with before | new
      · obtain ⟨known, found, same⟩ := consistent.typed request before other ofOther
        exact ⟨known, grows other known found, same⟩
      · cases List.mem_singleton.1 new
        cases ofOther
        exact ⟨type, added, rfl⟩
    · rw [List.lookup_append] at found
      cases before : r.types.lookup other with
      | some earlier =>
        rw [before] at found
        cases found
        exact List.mem_append_left _ (consistent.requested other known before)
      | none =>
        rw [before] at found
        have same : (other, known) = (name, type) := List.mem_singleton.1 (mem_of_lookup found)
        cases same
        exact List.mem_append_right _ List.mem_cons_self

/-- Making the requests of one style property. -/
theorem requestFor_eq_ok {property : StyleProperty} {e : Expr W N} {r after : Requests W N}
    (consistent : Consistent style r) (ran : style.requestFor r property e = .ok after) :
    Consistent style after ∧ Grows r after ∧ after.Serves (property, e) := by
  unfold requestFor at ran
  split at ran
  next tier =>
    cases ran
    refine ⟨⟨fun request member name ofProperty => ?_, fun name type known => ?_⟩,
      ⟨fun _ _ => id, fun request => List.mem_append_left _⟩, ⟨?_, fun _ => ?_⟩⟩
    · rcases List.mem_append.1 member with before | new
      · exact consistent.typed request before name ofProperty
      · cases List.mem_singleton.1 new
        cases ofProperty
    · exact List.mem_append_left _ (consistent.requested name type known)
    · intro other
      rw [tier] at other
      cases other
    · exact List.mem_append_right _ List.mem_cons_self
  next tier =>
    obtain ⟨⟨consistent, grows⟩, known, -⟩ := foldlM_eq_ok
      (fun after => Consistent style after ∧ Grows r after)
      (fun read after => after.types.lookup read.1 = some read.2)
      (fun before read after kept ran => by
        obtain ⟨consistent, grows, known⟩ := requestProperty_eq_ok kept.1 ran
        exact ⟨⟨consistent, kept.2.trans grows⟩, known⟩)
      (fun before read after other kept ran known => by
        obtain ⟨-, grows, -⟩ := requestProperty_eq_ok kept.1 ran
        exact grows.types _ _ known)
      ⟨consistent, .refl r⟩ ran
    refine ⟨consistent, grows, fun _ => known, fun other => ?_⟩
    rw [tier] at other
    cases other
  all_goals
    next tier =>
      cases ran
      refine ⟨consistent, .refl r, fun other => ?_, fun other => ?_⟩
      · rw [tier] at other
        cases other
      · rw [tier] at other
        cases other

/-- Making the requests of a style. -/
theorem requests_eq_ok {requests : List (AttributeRequest W N)}
    (made : style.requests = .ok requests) :
    ∃ r, r.requests = requests ∧ Consistent style r ∧ ∀ entry ∈ style.properties,
      r.Serves entry := by
  obtain ⟨r, ran, same⟩ := map_eq_ok.1 made
  obtain ⟨consistent, served, -⟩ := foldlM_eq_ok
    (Consistent style) (fun entry r => r.Serves entry)
    (fun before entry after kept ran => by
      obtain ⟨consistent, -, served⟩ := requestFor_eq_ok kept ran
      exact ⟨consistent, served⟩)
    (fun before entry after other kept ran served => by
      obtain ⟨-, grows, -⟩ := requestFor_eq_ok kept ran
      exact served.grow grows)
    (consistent_empty style) ran
  exact ⟨r, same, consistent, served⟩

/-! ## What is requested -/

/-- A request of a style: for a feature property, or for one of the style's own. -/
inductive Asks (style : ParsedStyle W N) : AttributeRequest W N → Prop
  | property (name : String) (type : ValueType) (bounds : Option (W × W)) :
      Asks style (.ofProperty name type bounds)
  | evaluated {entry : StyleProperty × Expr W N} (member : entry ∈ style.properties) :
      Asks style (.ofEvaluated entry.1 entry.2)

omit [Scalar W] in
theorem Asks.standard {style : ParsedStyle W N} {request : AttributeRequest W N}
    (asks : style.Asks request) : request.Standard := by
  cases asks with
  | property name type bounds => exact .property name type bounds
  | @evaluated entry => exact .evaluated entry.1 entry.2

/-- Nothing else is requested. -/
theorem asks_of_mem {requests : List (AttributeRequest W N)} (made : style.requests = .ok requests)
    {request : AttributeRequest W N} (member : request ∈ requests) : style.Asks request := by
  let promise (r : Requests W N) : Prop := ∀ request ∈ r.requests, style.Asks request
  have append {r : Requests W N} (kept : promise r) {request : AttributeRequest W N}
      (asks : style.Asks request) : ∀ other ∈ r.requests ++ [request], style.Asks other :=
    List.forall_mem_append.2 ⟨kept, List.forall_mem_singleton.2 asks⟩
  have settled : Settles promise (fun _ => True) (style.properties.foldlM
      (fun r entry => style.requestFor r entry.1 entry.2) ⟨[], []⟩) := by
    refine Settles.foldlM (fun r entry inStyle kept => ?_) (fun _ member => nomatch member)
    unfold requestFor
    split
    next => exact append kept (.evaluated inStyle)
    next =>
      refine Settles.foldlM (fun before ⟨name, type⟩ _ kept => ?_) kept
      show Settles promise _ (style.requestProperty entry.1 before name type)
      unfold requestProperty
      split
      next =>
        split
        next => exact kept
        next => trivial
      next => exact append kept (.property _ _ _)
    all_goals exact kept
  obtain ⟨r, ran, rfl⟩ := map_eq_ok.1 made
  rw [ran] at settled
  exact settled request member

/-! ## One request for each subject -/

/-- A feature property is requested once. -/
theorem nodup_requestProperty {property : StyleProperty} {r after : Requests W N} {name : String}
    {type : ValueType} (consistent : Consistent style r) (nodup : r.subjects.Nodup)
    (ran : style.requestProperty property r name type = .ok after) :
    after.subjects.Nodup ∧ ∀ other, .inr other ∈ after.subjects → .inr other ∈ r.subjects := by
  unfold requestProperty at ran
  split at ran
  next known found =>
    split at ran
    next =>
      cases ran
      exact ⟨nodup, fun _ => id⟩
    next => cases ran
  next unknown =>
    cases ran
    have new : .inl name ∉ r.subjects := by
      intro member
      obtain ⟨request, asked, about⟩ := List.mem_map.1 member
      obtain ⟨type, known, -⟩ := consistent.typed request asked name
        (AttributeSource.eq_property about)
      rw [unknown] at known
      cases known
    refine ⟨Requests.nodup_append nodup (.ofProperty name type (style.boundsOf name type)) new _,
      fun other member => ?_⟩
    rcases Requests.mem_subjects_append.1 member with before | added
    · exact before
    · cases added

/-- One style property requests itself at most. -/
theorem nodup_requestFor {property : StyleProperty} {e : Expr W N} {r after : Requests W N}
    (consistent : Consistent style r) (nodup : r.subjects.Nodup) (new : .inr property ∉ r.subjects)
    (ran : style.requestFor r property e = .ok after) :
    after.subjects.Nodup ∧
      ∀ other, .inr other ∈ after.subjects → other = property ∨ .inr other ∈ r.subjects := by
  unfold requestFor at ran
  split at ran
  next tier =>
    cases ran
    refine ⟨Requests.nodup_append nodup (.ofEvaluated property e) new _, fun other member => ?_⟩
    rcases Requests.mem_subjects_append.1 member with before | added
    · exact .inr before
    · exact .inl (Sum.inr.inj added)
  next tier =>
    obtain ⟨⟨-, nodup, only⟩, -⟩ := foldlM_eq_ok
      (fun after : Requests W N => Consistent style after ∧ after.subjects.Nodup ∧
        ∀ other, .inr other ∈ after.subjects → .inr other ∈ r.subjects)
      (fun _ _ => True)
      (fun before read after kept ran => by
        obtain ⟨consistent, -⟩ := requestProperty_eq_ok kept.1 ran
        obtain ⟨nodup, only⟩ := nodup_requestProperty kept.1 kept.2.1 ran
        exact ⟨⟨consistent, nodup, fun other member => kept.2.2 other (only other member)⟩,
          trivial⟩)
      (fun _ _ _ _ _ _ _ => trivial)
      ⟨consistent, nodup, fun _ => id⟩ ran
    exact ⟨nodup, fun other member => .inr (only other member)⟩
  all_goals
    next tier =>
      cases ran
      exact ⟨nodup, fun other => .inr⟩

/-- No two requests of a style are about one thing. -/
theorem nodup_requests (distinct : (style.properties.map Prod.fst).Nodup)
    {requests : List (AttributeRequest W N)} (made : style.requests = .ok requests) :
    (requests.map fun request => request.source.subject).Nodup := by
  have fold (entries : List (StyleProperty × Expr W N)) (r after : Requests W N)
      (distinct : (entries.map Prod.fst).Nodup) (consistent : Consistent style r)
      (nodup : r.subjects.Nodup) (apart : ∀ entry ∈ entries, .inr entry.1 ∉ r.subjects)
      (ran : entries.foldlM (fun r entry => style.requestFor r entry.1 entry.2) r = .ok after) :
      after.subjects.Nodup := by
    induction entries generalizing r with
    | nil =>
      rw [List.foldlM_nil, pure_eq_ok] at ran
      exact ran ▸ nodup
    | cons entry rest ih =>
      rw [List.foldlM_cons, bind_eq_ok] at ran
      obtain ⟨mid, first, ran⟩ := ran
      obtain ⟨apartFirst, apartRest⟩ := List.forall_mem_cons.1 apart
      rw [List.map_cons, List.nodup_cons] at distinct
      obtain ⟨consistentMid, -⟩ := requestFor_eq_ok consistent first
      obtain ⟨nodupMid, only⟩ := nodup_requestFor consistent nodup apartFirst first
      refine ih mid distinct.2 consistentMid nodupMid (fun other member requested => ?_) ran
      rcases only other.1 requested with same | before
      · exact distinct.1 (same ▸ List.mem_map_of_mem member)
      · exact apartRest other member before
  obtain ⟨r, ran, same⟩ := map_eq_ok.1 made
  rw [← same]
  exact fold style.properties ⟨[], []⟩ r distinct (consistent_empty style) List.nodup_nil
    (fun _ _ => List.not_mem_nil) ran

variable [Scalar N]

/-- What code in the shader reads of a feature is in the plan, as it was declared. -/
theorem exists_planned {requests : List (AttributeRequest W N)}
    (made : style.requests = .ok requests) {entry : StyleProperty × Expr W N}
    (member : entry ∈ style.properties) (tier : Tier.of entry.1 entry.2 = .inline) {name : String}
    {type : ValueType} (read : Expr.property name type ∈ entry.2.nodes) :
    ∃ a ∈ (Plan.ofRequests requests).attributes,
      a.Carries (.ofProperty name type (style.boundsOf name type)) ∧
        (Plan.ofRequests requests).unpackedProperty? name = some a.unpackedName := by
  obtain ⟨r, rfl, consistent, served⟩ := requests_eq_ok made
  have known := (served entry member).inline tier (name, type) (Expr.mem_dependencies.2 read)
  refine Plan.exists_unpackedProperty? (consistent.requested name type known) rfl ?_
  intro other asked ofProperty
  obtain ⟨otherType, found, same⟩ := consistent.typed other asked name ofProperty
  rw [known] at found
  cases found
  exact same

/-- What is evaluated ahead of the shader is in the plan. -/
theorem exists_evaluatedAhead {requests : List (AttributeRequest W N)}
    (made : style.requests = .ok requests) {entry : StyleProperty × Expr W N}
    (member : entry ∈ style.properties) (tier : Tier.of entry.1 entry.2 = .preEvaluated) :
    ∃ a, (Plan.ofRequests requests).evaluated? entry.1 = some a := by
  obtain ⟨r, rfl, -, served⟩ := requests_eq_ok made
  exact Plan.exists_evaluated? ((served entry member).preEvaluated tier)

/-! ## Ranges -/

omit [Scalar N] in
/-- A range that numbers are packed into has an extent. -/
theorem boundsOf_lt {name : String} {type : ValueType} {low high : W}
    (declared : style.boundsOf name type = some (low, high)) : Scalar.lt low high = true := by
  unfold boundsOf at declared
  split at declared
  · obtain ⟨declaration, -, bounds⟩ := Option.bind_eq_some_iff.1 declared
    unfold Declaration.bounds? at bounds
    split at bounds
    · split at bounds
      next inOrder =>
        cases bounds
        exact inOrder
      next => cases bounds
    · cases bounds
  · cases declared

/-- Every attribute of a style that packs numbers into a range packs them into a declared one. -/
theorem lt_of_normalized {requests : List (AttributeRequest W N)}
    (made : style.requests = .ok requests) {a : Attribute W N}
    (member : a ∈ (Plan.ofRequests requests).attributes) {low high : W}
    (normalized : a.quantization = .normalized low high) : Scalar.lt low high = true := by
  obtain ⟨request, asked, carries⟩ := Plan.carries_of_mem member
  have bounds : request.bounds = some (low, high) :=
    Quantization.bounds_of_normalized (carries.quantization.symm.trans normalized)
  obtain ⟨r, rfl, consistent, -⟩ := requests_eq_ok made
  cases source : request.source with
  | property name =>
    obtain ⟨type, -, rfl⟩ := consistent.typed request asked name source
    exact boundsOf_lt bounds
  | evaluated property e =>
    rcases asks_of_mem made asked with ⟨name, type, declared⟩ | ⟨inStyle⟩
    · cases source
    · cases bounds

end ParsedStyle

end MapStyle
