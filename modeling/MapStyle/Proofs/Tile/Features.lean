import MapStyle.Proofs.Packing.Plan
import MapStyle.Tile.Tessellation

/-!
# Features that are drawn

A style prepares exactly the features of a tile that its filter lets through and of which
something can be drawn. Whatever fails while one is prepared, its words fill the attributes
of a vertex. Apart from its position, nothing that is prepared of a feature depends on where
the tile lists it or on what else is listed.
-/

namespace MapStyle

variable {W N : Type} [Scalar W] [Scalar N] [Precision W N]

/-- What is prepared of a feature, without its position. -/
def Prepared.unplaced (p : Prepared W N) : Prepared W N := { p with index := 0 }

omit [Scalar N] [Precision W N] in
theorem Prepared.sorted_of_pairwise {features : List (Prepared W N)}
    (ordered : features.Pairwise fun a b => (!b.precedes a) = true) : sorted features = features :=
  List.mergeSort_of_pairwise ordered

namespace CompiledStyle

variable (style : CompiledStyle W N)

/-- The context in which a feature of a tile is evaluated. -/
def tileContext (tile : Tile W N) (feature : Feature W N) : Context W N :=
  style.buildContext feature.properties.get? (Scalar.ofNat tile.id.z.toNat)

/-- A feature at a position of a tile survives: the filter lets it through and something can be
drawn of it. -/
structure Survives (tile : Tile W N) (index : Nat) (feature : Feature W N) : Prop where
  found : tile.features[index]? = some feature
  passes : style.passesFilter (style.tileContext tile feature) = .ok true
  drawable : feature.geometry.isDegenerate = false

/-! ## Words -/

theorem length_attributeWords (c : Context W N) (index : Nat) (a : Attribute W N) :
    (attributeWords c index a).1.length = a.components := by
  unfold attributeWords
  exact a.length_pack _

/-- A feature whose attributes cannot all be evaluated has as many words as any other. -/
theorem length_featureWords (c : Context W N) (index : Nat) :
    (style.featureWords c index).1.length = style.plan.stride := by
  rw [featureWords, Plan.stride]
  induction style.plan.attributes with
  | nil => rfl
  | cons a rest ih =>
    simp only [List.map_cons, List.flatMap_cons, List.length_append, length_attributeWords,
      List.foldr_cons] at ih ⊢
    rw [ih]

/-! ## Survivors -/

/-- What is prepared of the features of a tile, in the order in which it lists them. -/
def listed (zoom : W) (features : List (Feature W N)) : List (Prepared W N) :=
  (features.zipIdx.map fun (feature, index) => style.prepare zoom index feature).filterMap Prod.fst

theorem prepare_eq_some {zoom : W} {index : Nat} {feature : Feature W N} {p : Prepared W N} :
    (style.prepare zoom index feature).1 = some p ↔
      style.passesFilter (style.buildContext feature.properties.get? zoom) = .ok true ∧
        feature.geometry.isDegenerate = false ∧
        p = (style.prepareDrawn (style.buildContext feature.properties.get? zoom) index
          feature).1 := by
  rw [prepare]
  cases style.passesFilter (style.buildContext feature.properties.get? zoom) with
  | error e => simp
  | ok passes =>
    cases passes with
    | false => simp
    | true => cases feature.geometry.isDegenerate <;> simp [eq_comm]

theorem prepareAll_fst (tile : Tile W N) : (style.prepareAll tile).1 =
    Prepared.sorted (style.listed (Scalar.ofNat tile.id.z.toNat) tile.features) := rfl

/-- Exactly the survivors of a tile are prepared. -/
theorem mem_prepareAll {tile : Tile W N} {p : Prepared W N} :
    p ∈ (style.prepareAll tile).1 ↔ ∃ index feature, style.Survives tile index feature ∧
      p = (style.prepareDrawn (style.tileContext tile feature) index feature).1 := by
  simp only [prepareAll_fst, listed, Prepared.sorted, List.mem_mergeSort, List.mem_filterMap,
    List.mem_map]
  constructor
  · rintro ⟨result, ⟨⟨feature, index⟩, listed, rfl⟩, prepared⟩
    obtain ⟨passes, drawable, same⟩ := style.prepare_eq_some.1 prepared
    exact ⟨index, feature, ⟨List.mem_zipIdx_iff_getElem?.1 listed, passes, drawable⟩, same⟩
  · rintro ⟨index, feature, survives, same⟩
    refine ⟨_, ⟨(feature, index), List.mem_zipIdx_iff_getElem?.2 survives.found, rfl⟩, ?_⟩
    exact style.prepare_eq_some.2 ⟨survives.passes, survives.drawable, same⟩

/-! ## Positions -/

theorem evaluateOrDefault_fst (c : Context W N) (index : Nat) (property : StyleProperty) :
    (style.evaluateOrDefault c index property).1 = (style.evaluateOrDefault c 0 property).1 := by
  unfold evaluateOrDefault
  cases style.evaluate property c <;> rfl

theorem attributeWords_fst (c : Context W N) (index : Nat) (a : Attribute W N) :
    (attributeWords c index a).1 = (attributeWords c 0 a).1 := by
  unfold attributeWords
  cases attributeValue c a <;> rfl

theorem featureWords_fst (c : Context W N) (index : Nat) :
    (style.featureWords c index).1 = (style.featureWords c 0).1 := by
  simp only [featureWords, List.flatMap_map, attributeWords_fst c index]

theorem symbolContents_fst (c : Context W N) (index : Nat) (geometry : Geometry W) :
    (style.symbolContents c index geometry).1 = (style.symbolContents c 0 geometry).1 := by
  unfold symbolContents
  split
  · simp only [evaluateOrDefault_fst style c index]
  · rfl

/-- What is prepared of a feature depends on the feature alone. -/
theorem prepareDrawn_unplaced (c : Context W N) (index : Nat) (feature : Feature W N) :
    (style.prepareDrawn c index feature).1.unplaced = (style.prepareDrawn c 0 feature).1 := by
  simp only [prepareDrawn, Prepared.unplaced, evaluateOrDefault_fst style c index,
    featureWords_fst style c index, symbolContents_fst style c index]

/-- Whether a feature is prepared depends on the feature alone. -/
theorem prepare_unplaced (zoom : W) (index : Nat) (feature : Feature W N) :
    (style.prepare zoom index feature).1.map Prepared.unplaced =
      (style.prepare zoom 0 feature).1 := by
  simp only [prepare]
  split
  · rfl
  · rfl
  · split
    · rfl
    · exact congrArg some (style.prepareDrawn_unplaced _ index feature)

end CompiledStyle

end MapStyle
