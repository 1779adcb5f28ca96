import MapStyle.Packing.Plan
import MapStyle.Proofs.Packing.Names

/-!
# What a plan carries

A plan has an attribute for every source that was requested, as the request asked for it,
and no two attributes share the name under which shader code reads them. The names open with what
the requests of styles open with, so they are identifiers and shared with nothing else.
-/

namespace MapStyle

variable {W N : Type}

/-- An attribute carries what a request asked for. -/
structure Attribute.Carries (a : Attribute W N) (request : AttributeRequest W N) : Prop where
  type : a.type = request.type
  source : a.source = request.source
  quantization : a.quantization = Quantization.of request.type request.bounds

/-- A value has as many words as its attribute, whatever its type. -/
theorem Attribute.length_pack [Scalar W] [Scalar N] [Precision W N] (a : Attribute W N)
    (value : Value W N) : (a.pack value).1.length = a.components := by
  unfold pack components
  cases a.quantization <;> rfl

/-- What a source is about: a feature property or a style property. -/
def AttributeSource.subject : AttributeSource W N → String ⊕ StyleProperty
  | .property name => .inl name
  | .evaluated other _ => .inr other

theorem AttributeSource.eq_property {source : AttributeSource W N} {name : String}
    (same : source.subject = .inl name) : source = .property name := by
  cases source with
  | property other => exact congrArg _ (Sum.inl.inj same)
  | evaluated => cases same

namespace AttributeRequest

/-- A request for a feature property or for a style property. -/
inductive Standard : AttributeRequest W N → Prop
  | property (name : String) (type : ValueType) (bounds : Option (W × W)) :
      Standard (.ofProperty name type bounds)
  | evaluated (property : StyleProperty) (e : Expr W N) : Standard (.ofEvaluated property e)

/-- What the names open with that such requests ask for. -/
def openings : List String := ["prop_", "style_"]

theorem opening_of_mem : ∀ front ∈ openings, Identifier.Opening front := by decide

theorem Standard.exists_name_eq {request : AttributeRequest W N} (standard : request.Standard) :
    ∃ front ∈ openings, ∃ rest, request.name = front ++ rest := by
  cases standard with
  | property name => exact ⟨"prop_", by decide, name, rfl⟩
  | evaluated property => exact ⟨"style_", by decide, property.identifier, rfl⟩

end AttributeRequest

namespace Plan

/-! ## Places -/

theorem carries_of_mem_place {offset : Nat} {taken : List String}
    {requests : List (AttributeRequest W N)} {a : Attribute W N}
    (member : a ∈ place offset taken requests) : ∃ request ∈ requests, a.Carries request := by
  induction requests generalizing offset taken with
  | nil => cases member
  | cons request rest ih =>
    rcases List.mem_cons.1 member with rfl | later
    · exact ⟨request, List.mem_cons_self, rfl, rfl, rfl⟩
    · obtain ⟨other, inRest, carries⟩ := ih later
      exact ⟨other, List.mem_cons_of_mem _ inRest, carries⟩

theorem exists_mem_place (offset : Nat) (taken : List String)
    {requests : List (AttributeRequest W N)} {request : AttributeRequest W N}
    (member : request ∈ requests) : ∃ a ∈ place offset taken requests, a.Carries request := by
  induction requests generalizing offset taken with
  | nil => cases member
  | cons first rest ih =>
    rcases List.mem_cons.1 member with rfl | later
    · exact ⟨_, List.mem_cons_self, rfl, rfl, rfl⟩
    · obtain ⟨a, placed, carries⟩ := ih _ _ later
      exact ⟨a, List.mem_cons_of_mem _ placed, carries⟩

/-- Names differ from one another and from those that were taken before. -/
theorem place_names (offset : Nat) (taken : List String) (requests : List (AttributeRequest W N)) :
    ((place offset taken requests).map Attribute.unpackedName).Nodup ∧
      ∀ a ∈ place offset taken requests, a.unpackedName ∉ taken := by
  induction requests generalizing offset taken with
  | nil => exact ⟨List.nodup_nil, fun _ member => nomatch member⟩
  | cons request rest ih =>
    let name := Identifier.firstFree taken (Identifier.sanitize request.name)
    have free : name ∉ taken := Identifier.firstFree_not_mem _ _
    obtain ⟨distinct, outside⟩ := ih
      (offset + (Quantization.of request.type request.bounds).components) (name :: taken)
    refine ⟨List.nodup_cons.2 ⟨?_, distinct⟩, List.forall_mem_cons.2 ⟨free, ?_⟩⟩
    · rw [List.mem_map]
      rintro ⟨a, placed, same⟩
      exact outside a placed (same ▸ List.mem_cons_self)
    · intro a placed inTaken
      exact outside a placed (List.mem_cons_of_mem _ inTaken)

/-- A name is the free one for some request. -/
theorem named_of_mem_place {offset : Nat} {taken : List String}
    {requests : List (AttributeRequest W N)} {a : Attribute W N}
    (member : a ∈ place offset taken requests) : ∃ request ∈ requests, ∃ others,
      a.unpackedName = Identifier.firstFree others (Identifier.sanitize request.name) := by
  induction requests generalizing offset taken with
  | nil => cases member
  | cons request rest ih =>
    rcases List.mem_cons.1 member with rfl | later
    · exact ⟨request, List.mem_cons_self, taken, rfl⟩
    · obtain ⟨other, inRest, named⟩ := ih later
      exact ⟨other, List.mem_cons_of_mem _ inRest, named⟩

/-- The field of an attribute is named after its unpacked value. -/
theorem name_of_mem_place {offset : Nat} {taken : List String}
    {requests : List (AttributeRequest W N)} {a : Attribute W N}
    (member : a ∈ place offset taken requests) : a.name = "a_" ++ a.unpackedName := by
  induction requests generalizing offset taken with
  | nil => cases member
  | cons request rest ih =>
    rcases List.mem_cons.1 member with rfl | later
    · rfl
    · exact ih later

/-! ## One request for each source -/

variable [Scalar W] [Scalar N]

theorem subject_of_beq {source other : AttributeSource W N} (same : (source == other) = true) :
    source.subject = other.subject := by
  cases source with
  | property name =>
    cases other with
    | property => exact congrArg Sum.inl (eq_of_beq (α := String) same)
    | evaluated => cases same
  | evaluated property e =>
    cases other with
    | property => cases same
    | evaluated =>
      exact congrArg Sum.inr (eq_of_beq (α := StyleProperty) (Bool.and_eq_true_iff.1 same).1)

/-- The requests kept while some are gone through: those kept before and some of these, one for
the subject of each. -/
theorem distinct_step (kept requests : List (AttributeRequest W N)) :
    let result := requests.foldl (fun kept request =>
      if kept.any (·.source == request.source) then kept else kept ++ [request]) kept
    (∀ request ∈ kept, request ∈ result) ∧
      (∀ request ∈ result, request ∈ kept ∨ request ∈ requests) ∧
      ∀ request ∈ requests, ∃ other ∈ result, other.source.subject = request.source.subject := by
  induction requests generalizing kept with
  | nil =>
    exact ⟨fun _ member => member, fun _ member => .inl member, fun _ member => nomatch member⟩
  | cons first rest ih =>
    rw [List.foldl_cons]
    split
    next known =>
      obtain ⟨keeps, only, covers⟩ := ih kept
      refine ⟨keeps, fun request member => ?_, List.forall_mem_cons.2 ⟨?_, covers⟩⟩
      · exact (only request member).imp_right (List.mem_cons_of_mem _)
      · obtain ⟨other, member, same⟩ := List.any_eq_true.1 known
        exact ⟨other, keeps other member, subject_of_beq same⟩
    next =>
      obtain ⟨keeps, only, covers⟩ := ih (kept ++ [first])
      refine ⟨fun request member => keeps request (List.mem_append_left _ member), ?_,
        List.forall_mem_cons.2 ⟨⟨first, keeps first (by simp), rfl⟩, covers⟩⟩
      intro request member
      rcases only request member with before | later
      · rcases List.mem_append.1 before with before | added
        · exact .inl before
        · exact .inr (List.mem_cons.2 (.inl (List.mem_singleton.1 added)))
      · exact .inr (List.mem_cons_of_mem _ later)

/-- Requests for different subjects are all kept. -/
theorem distinct_eq_self {requests : List (AttributeRequest W N)}
    (apart : (requests.map fun request => request.source.subject).Nodup) :
    distinct requests = requests := by
  have fold (kept rest : List (AttributeRequest W N))
      (apart : ((kept ++ rest).map fun request => request.source.subject).Nodup) :
      rest.foldl (fun kept request =>
        if kept.any (·.source == request.source) then kept else kept ++ [request]) kept =
          kept ++ rest := by
    induction rest generalizing kept with
    | nil => rw [List.foldl_nil, List.append_nil]
    | cons request rest ih =>
      have new : kept.any (·.source == request.source) = false := by
        refine List.any_eq_false.2 fun other member same => ?_
        rw [List.map_append, List.nodup_append] at apart
        exact apart.2.2 _ (List.mem_map_of_mem member) _ (by simp) (subject_of_beq same)
      rw [List.append_cons] at apart ⊢
      rw [List.foldl_cons, new]
      exact ih (kept ++ [request]) apart
  exact fold [] requests apart

/-! ## Plans -/

theorem carries_of_mem {requests : List (AttributeRequest W N)} {a : Attribute W N}
    (member : a ∈ (ofRequests requests).attributes) :
    ∃ request ∈ requests, a.Carries request := by
  obtain ⟨request, inDistinct, carries⟩ := carries_of_mem_place member
  obtain ⟨-, only, -⟩ := distinct_step [] requests
  rcases only request inDistinct with before | asked
  · cases before
  · exact ⟨request, asked, carries⟩

theorem named_of_mem {requests : List (AttributeRequest W N)} {a : Attribute W N}
    (member : a ∈ (ofRequests requests).attributes) : ∃ request ∈ requests, ∃ others,
      a.unpackedName = Identifier.firstFree others (Identifier.sanitize request.name) := by
  obtain ⟨request, inDistinct, named⟩ := named_of_mem_place member
  obtain ⟨-, only, -⟩ := distinct_step [] requests
  rcases only request inDistinct with before | asked
  · cases before
  · exact ⟨request, asked, named⟩

theorem nodup_names (requests : List (AttributeRequest W N)) :
    ((ofRequests requests).attributes.map Attribute.unpackedName).Nodup :=
  (place_names _ _ _).1

/-- The names of unpacked values open with what the requests open with. -/
theorem exists_opening {requests : List (AttributeRequest W N)}
    (standard : ∀ request ∈ requests, request.Standard) {a : Attribute W N}
    (member : a ∈ (ofRequests requests).attributes) :
    ∃ front ∈ AttributeRequest.openings, front.toList <+: a.unpackedName.toList := by
  obtain ⟨request, asked, others, named⟩ := named_of_mem member
  obtain ⟨front, opens, rest, name⟩ := (standard request asked).exists_name_eq
  refine ⟨front, opens, ?_⟩
  rw [named, name]
  exact Identifier.prefix_firstFree others
    ((AttributeRequest.opening_of_mem front opens).prefix_sanitize rest)

/-- The names of unpacked values have the characters of identifiers. -/
theorem run_unpackedName {requests : List (AttributeRequest W N)} {a : Attribute W N}
    (member : a ∈ (ofRequests requests).attributes) :
    Text.Run Identifier.isWord a.unpackedName.toList := by
  obtain ⟨request, -, others, named⟩ := named_of_mem member
  rw [named]
  exact Identifier.run_firstFree others (Identifier.run_sanitize _)

/-- Whatever was requested, some attribute is about it. -/
theorem exists_attribute {requests : List (AttributeRequest W N)} {request : AttributeRequest W N}
    (member : request ∈ requests) :
    ∃ a ∈ (ofRequests requests).attributes, a.source.subject = request.source.subject := by
  obtain ⟨-, -, covers⟩ := distinct_step [] requests
  obtain ⟨kept, inDistinct, same⟩ := covers request member
  obtain ⟨a, placed, carries⟩ := exists_mem_place 0 [] inDistinct
  exact ⟨a, placed, carries.source ▸ same⟩

/-- A style property that was requested has an attribute. -/
theorem exists_evaluated? {requests : List (AttributeRequest W N)} {property : StyleProperty}
    {e : Expr W N} (member : .ofEvaluated property e ∈ requests) :
    ∃ a, (ofRequests requests).evaluated? property = some a := by
  obtain ⟨a, placed, same⟩ := exists_attribute member
  refine Option.isSome_iff_exists.1 (List.find?_isSome.2 ⟨a, placed, ?_⟩)
  cases source : a.source with
  | property name =>
    rw [source] at same
    cases same
  | evaluated other _ =>
    rw [source] at same
    exact decide_eq_true (Sum.inr.inj same)

omit [Scalar W] [Scalar N] in
/-- What is read for a feature property is what an attribute of it is unpacked to. -/
theorem exists_of_unpackedProperty? {plan : Plan W N} {property unpacked : String}
    (read : plan.unpackedProperty? property = some unpacked) :
    ∃ a ∈ plan.attributes, a.source = .property property ∧ a.unpackedName = unpacked := by
  obtain ⟨a, member, found⟩ := List.exists_of_findSome?_eq_some read
  refine ⟨a, member, ?_⟩
  split at found
  next other source =>
    split at found
    next same => exact ⟨same ▸ source, Option.some.inj found⟩
    next => cases found
  next => cases found

/-- A feature property that was requested is read from an attribute of it. -/
theorem exists_read {requests : List (AttributeRequest W N)} {request : AttributeRequest W N}
    (asked : request ∈ requests) {property : String}
    (source : request.source = .property property) :
    ∃ a ∈ (ofRequests requests).attributes, a.source = .property property ∧
      (ofRequests requests).unpackedProperty? property = some a.unpackedName := by
  obtain ⟨placed, inPlan, same⟩ := exists_attribute asked
  have ofProperty : placed.source = .property property :=
    AttributeSource.eq_property (by rw [same, source]; rfl)
  have found : ((ofRequests requests).unpackedProperty? property).isSome = true :=
    List.findSome?_isSome_iff.2 ⟨placed, inPlan, by simp [ofProperty]⟩
  obtain ⟨unpacked, read⟩ := Option.isSome_iff_exists.1 found
  obtain ⟨a, member, ofA, rfl⟩ := exists_of_unpackedProperty? read
  exact ⟨a, member, ofA, read⟩

/-- A feature property that was requested in one way only is read from an attribute that carries
that request. -/
theorem exists_unpackedProperty? {requests : List (AttributeRequest W N)}
    {request : AttributeRequest W N} {name : String} (member : request ∈ requests)
    (ofProperty : request.source = .property name)
    (only : ∀ other ∈ requests, other.source = .property name → other = request) :
    ∃ a ∈ (ofRequests requests).attributes, a.Carries request ∧
      (ofRequests requests).unpackedProperty? name = some a.unpackedName := by
  obtain ⟨a, inPlan, source, read⟩ := exists_read member ofProperty
  obtain ⟨asked, wasAsked, carries⟩ := carries_of_mem inPlan
  have same : asked = request := only asked wasAsked (carries.source ▸ source)
  exact ⟨a, inPlan, same ▸ carries, read⟩

end Plan

end MapStyle
