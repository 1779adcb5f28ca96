import MapStyle.Proofs.Expr.Canonical
import MapStyle.Proofs.Style.Compiled

/-!
# Canonical forms of styles

A style and its canonical form make the same choices: the tiers of their properties are the same,
and they request the same of a vertex, so that one of them compiles exactly if the other does.
Where two styles have one canonical form they therefore differ in the values of literals and of
variables only.
-/

namespace MapStyle

variable {W N : Type} [Scalar W] [Scalar N]

/-- A source with its expression in canonical form. -/
def AttributeSource.canonical : AttributeSource W N → AttributeSource W N
  | .property name => .property name
  | .evaluated other e => .evaluated other e.canonical

/-- A request with its source in canonical form. -/
def AttributeRequest.canonical (request : AttributeRequest W N) : AttributeRequest W N :=
  { request with source := request.source.canonical }

/-- An attribute with its source in canonical form. -/
def Attribute.canonical (a : Attribute W N) : Attribute W N :=
  { a with source := a.source.canonical }

/-- A plan with the sources of its attributes in canonical form. -/
def Plan.canonical (plan : Plan W N) : Plan W N := ⟨plan.attributes.map Attribute.canonical⟩

/-- Where an attribute goes does not depend on its source. -/
theorem Plan.place_canonical (offset : Nat) (taken : List String)
    (requests : List (AttributeRequest W N)) :
    place offset taken (requests.map AttributeRequest.canonical) =
      (place offset taken requests).map Attribute.canonical := by
  induction requests generalizing offset taken with
  | nil => rfl
  | cons request rest ih =>
    rw [List.map_cons, place, place, List.map_cons, ih]
    rfl

namespace ParsedStyle

/-- The style with all its literals and the defaults of its variables in canonical form. -/
def canonical (style : ParsedStyle W N) : ParsedStyle W N where
  properties := style.properties.map fun entry => (entry.1, entry.2.canonical)
  bindings := style.bindings.map fun _ value => value.canonical
  schema := style.schema
  externals := style.externals

/-- The requests made so far, with their sources in canonical form. -/
def Requests.canonical (r : Requests W N) : Requests W N :=
  ⟨r.requests.map AttributeRequest.canonical, r.types⟩

/-- The tiers of the properties of a style. -/
def tiers (style : ParsedStyle W N) : List (StyleProperty × Tier) :=
  style.properties.map fun entry => (entry.1, Tier.of entry.1 entry.2)

theorem tiers_canonical (style : ParsedStyle W N) : style.canonical.tiers = style.tiers := by
  rw [tiers, canonical, List.map_map]
  refine List.map_congr_left fun entry _ => ?_
  rw [Function.comp_apply, Tier.of_canonical]

theorem requestProperty_canonical (style : ParsedStyle W N) (property : StyleProperty)
    (r : Requests W N) (name : String) (type : ValueType) :
    style.canonical.requestProperty property r.canonical name type =
      (style.requestProperty property r name type).map Requests.canonical := by
  unfold requestProperty
  rw [show r.canonical.types = r.types from rfl]
  split
  next known found =>
    split
    next => rfl
    next => rfl
  next =>
    simp only [Except.map, Requests.canonical, List.map_append, List.map_cons, List.map_nil]
    rfl

theorem requestFor_canonical (style : ParsedStyle W N) (r : Requests W N) (property : StyleProperty)
    (e : Expr W N) :
    style.canonical.requestFor r.canonical property e.canonical =
      (style.requestFor r property e).map Requests.canonical := by
  unfold requestFor
  rw [Tier.of_canonical, Expr.dependencies_canonical]
  split
  next =>
    simp only [Except.map, Requests.canonical, List.map_append, List.map_cons, List.map_nil]
    rfl
  next =>
    have fold := foldlM_map (f := fun r read => style.requestProperty property r read.1 read.2)
      (k := fun r read => style.canonical.requestProperty property r read.1 read.2)
      Requests.canonical id
      (fun r read => requestProperty_canonical style property r read.1 read.2)
      e.dependencies.properties r
    rwa [List.map_id] at fold
  next => rfl
  next => rfl
  next => rfl

/-- The canonical form requests what the style requests. -/
theorem requests_canonical (style : ParsedStyle W N) :
    style.canonical.requests = style.requests.map (List.map AttributeRequest.canonical) := by
  have fold : style.canonical.properties.foldlM
      (fun r entry => style.canonical.requestFor r entry.1 entry.2) ⟨[], []⟩ =
        (style.properties.foldlM (fun r entry => style.requestFor r entry.1 entry.2) ⟨[], []⟩).map
          Requests.canonical :=
    foldlM_map Requests.canonical (fun entry => (entry.1, entry.2.canonical))
      (fun r entry => requestFor_canonical style r entry.1 entry.2) style.properties ⟨[], []⟩
  rw [requests, fold, requests]
  cases style.properties.foldlM (fun r entry => style.requestFor r entry.1 entry.2) ⟨[], []⟩ with
  | ok r => rfl
  | error e => rfl

/-- Styles with one canonical form have one plan, up to the sources of its attributes. -/
theorem plan_canonical {style other : ParsedStyle W N} (sound : style.Sound) (sound' : other.Sound)
    (same : style.canonical = other.canonical) {requests requests' : List (AttributeRequest W N)}
    (made : style.requests = .ok requests) (made' : other.requests = .ok requests') :
    (Plan.ofRequests requests).canonical = (Plan.ofRequests requests').canonical := by
  have canonical_eq : requests.map AttributeRequest.canonical =
      requests'.map AttributeRequest.canonical := by
    have both : style.canonical.requests = other.canonical.requests := by rw [same]
    rw [requests_canonical, requests_canonical, made, made'] at both
    exact Except.ok.inj both
  unfold Plan.ofRequests Plan.canonical
  rw [Plan.distinct_eq_self (nodup_requests sound.distinct made),
    Plan.distinct_eq_self (nodup_requests sound'.distinct made'), ← Plan.place_canonical,
    ← Plan.place_canonical, canonical_eq]

variable [Precision W N]

/-- A style compiles exactly if its requests agree. -/
theorem exists_lower_iff {style : ParsedStyle W N} (sound : style.Sound) :
    (∃ compiled, style.lower = .ok compiled) ↔ ∃ requests, style.requests = .ok requests := by
  constructor
  · rintro ⟨compiled, ran⟩
    exact requests_of_lower ran
  · rintro ⟨requests, made⟩
    obtain ⟨compiled, ran, -⟩ := exists_lower sound made
    exact ⟨compiled, ran⟩

end ParsedStyle

end MapStyle
