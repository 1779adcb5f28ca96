import MapStyle.Proofs.Number.Order
import MapStyle.Proofs.Tile.Features

/-!
# The order of drawing

Features are drawn by their depth and then by their number. The position at which a tile
lists them decides only between features of one number, so when every feature has a number
of its own, tiles that list the same features in any order are drawn alike. A position is
left in the symbols only, which say what feature they stand for.
-/

namespace MapStyle

variable {W N : Type} [Scalar W]

/-! ## The order of prepared features -/

namespace Prepared

/-- A feature precedes another one by depth, then by number, then by position. -/
theorem exists_precedes_iff [Scalar.Ranked W] : ∃ rank : W → Int, ∀ a b : Prepared W N,
    a.precedes b = true ↔ rank a.zIndex < rank b.zIndex ∨
      rank a.zIndex = rank b.zIndex ∧ (a.drawNumber < b.drawNumber ∨
        a.drawNumber = b.drawNumber ∧ a.index < b.index) := by
  obtain ⟨rank, ranked⟩ := Scalar.Ranked.exists_rank (α := W)
  refine ⟨rank, fun a b => ?_⟩
  simp only [precedes, ranked, decide_eq_true_eq]
  split
  · simp [*]
  · split
    · simp only [Bool.false_eq_true, false_iff]
      omega
    · split
      · simp only [decide_eq_true_eq]
        omega
      · simp only [decide_eq_true_eq]
        omega

variable [Scalar.Ranked W] {features others : List (Prepared W N)}

/-- Sorted features are drawn no later than those behind them. -/
theorem pairwise_sorted (features : List (Prepared W N)) :
    (sorted features).Pairwise fun a b => (!b.precedes a) = true := by
  obtain ⟨rank, precedes_iff⟩ := exists_precedes_iff (W := W) (N := N)
  refine List.pairwise_mergeSort (fun a b c first second => ?_) (fun a b => ?_) features
  · rw [Bool.not_eq_true', Bool.eq_false_iff, Ne, precedes_iff] at first second ⊢
    omega
  · rw [Bool.or_eq_true, Bool.not_eq_true', Bool.not_eq_true', Bool.eq_false_iff,
      Bool.eq_false_iff, Ne, Ne, precedes_iff, precedes_iff]
    omega

/-- Of features with different numbers one precedes the other, wherever they are listed. -/
theorem precedes_unplaced {a b : Prepared W N} (apart : a.drawNumber ≠ b.drawNumber)
    (notAfter : (!b.precedes a) = true) : a.unplaced.precedes b.unplaced = true := by
  obtain ⟨rank, precedes_iff⟩ := exists_precedes_iff (W := W) (N := N)
  rw [Bool.not_eq_true', Bool.eq_false_iff, Ne, precedes_iff] at notAfter
  rw [precedes_iff]
  show rank a.zIndex < rank b.zIndex ∨ rank a.zIndex = rank b.zIndex ∧
    (a.drawNumber < b.drawNumber ∨ a.drawNumber = b.drawNumber ∧ 0 < 0)
  omega

theorem precedes_asymm {a b : Prepared W N} (first : a.precedes b = true) :
    b.precedes a = false := by
  obtain ⟨rank, precedes_iff⟩ := exists_precedes_iff (W := W) (N := N)
  rw [Bool.eq_false_iff, Ne, precedes_iff]
  rw [precedes_iff] at first
  omega

/-- Sorted features with different numbers precede those behind them. -/
theorem pairwise_unplaced (apart : (features.map drawNumber).Nodup) :
    ((sorted features).map unplaced).Pairwise fun a b => a.precedes b = true := by
  have sortedApart : ((sorted features).map drawNumber).Nodup :=
    ((List.mergeSort_perm features _).map drawNumber).symm.nodup apart
  rw [List.pairwise_map]
  exact ((List.pairwise_map.1 sortedApart).and (pairwise_sorted features)).imp fun both =>
    precedes_unplaced both.1 both.2

/-- Features with different numbers are sorted alike in whatever order they are listed. -/
theorem sorted_perm (apart : (features.map drawNumber).Nodup)
    (perm : (others.map unplaced).Perm (features.map unplaced)) :
    (sorted others).map unplaced = (sorted features).map unplaced := by
  have numbers : (others.map drawNumber).Perm (features.map drawNumber) := by
    have moved := perm.map drawNumber
    rwa [List.map_map, List.map_map] at moved
  -- Both lists are strictly ordered, and a strict order leaves one arrangement only.
  refine List.Perm.eq_of_pairwise (fun a b _ _ first second => ?_)
    (pairwise_unplaced (numbers.symm.nodup apart)) (pairwise_unplaced apart) ?_
  · rw [precedes_asymm first] at second
    cases second
  · exact ((List.mergeSort_perm others _).map unplaced).trans
      (perm.trans ((List.mergeSort_perm features _).map unplaced).symm)

end Prepared

/-! ## Tiles that list the same features -/

variable [Scalar N] [Precision W N]

namespace CompiledStyle

variable (style : CompiledStyle W N)

/-- But for positions, the features of a tile are prepared one by one. -/
theorem map_unplaced_listed (zoom : W) (features : List (Feature W N)) :
    (style.listed zoom features).map Prepared.unplaced =
      features.filterMap fun feature => (style.prepare zoom 0 feature).1 := by
  rw [listed]
  calc _ = features.zipIdx.filterMap fun entry => (style.prepare zoom 0 entry.1).1 := by
        rw [List.filterMap_map, List.map_filterMap]
        exact congrArg (List.filterMap · _) <| funext fun entry =>
          style.prepare_unplaced zoom entry.2 entry.1
    _ = (features.zipIdx.map Prod.fst).filterMap
          fun feature => (style.prepare zoom 0 feature).1 := by
        rw [List.filterMap_map]
        rfl
    _ = features.filterMap fun feature => (style.prepare zoom 0 feature).1 := by
        rw [List.zipIdx_map_fst]

theorem feature_of_prepare {zoom : W} {index : Nat} {feature : Feature W N} {p : Prepared W N}
    (prepared : (style.prepare zoom index feature).1 = some p) : p.feature = feature := by
  obtain ⟨-, -, rfl⟩ := style.prepare_eq_some.1 prepared
  rfl

/-- Features with numbers of their own are drawn by different numbers. -/
theorem nodup_drawNumber (zoom : W) {features : List (Feature W N)}
    (numbered : ∀ feature ∈ features, feature.id.isSome = true)
    (distinct : (features.map Feature.id).Nodup) :
    ((style.listed zoom features).map Prepared.drawNumber).Nodup := by
  -- A feature without a number is drawn by the greatest one, which another may have.
  have apart : features.Pairwise fun a b =>
      (a.id.map UInt64.toNat).getD (UInt64.size - 1) ≠
        (b.id.map UInt64.toNat).getD (UInt64.size - 1) := by
    refine (List.pairwise_map.1 distinct).imp_of_mem fun inFirst inSecond apart same => apart ?_
    obtain ⟨i, first⟩ := Option.isSome_iff_exists.1 (numbered _ inFirst)
    obtain ⟨j, second⟩ := Option.isSome_iff_exists.1 (numbered _ inSecond)
    rw [first, second] at same ⊢
    exact congrArg some (UInt64.toNat_inj.1 same)
  have unplaced : (style.listed zoom features).map Prepared.drawNumber =
      (features.filterMap fun feature => (style.prepare zoom 0 feature).1).map
        Prepared.drawNumber := by
    rw [← map_unplaced_listed, List.map_map]
    rfl
  rw [unplaced, List.Nodup, List.pairwise_map]
  refine apart.filterMap _ fun a b different p first q second => ?_
  rw [← style.feature_of_prepare first, ← style.feature_of_prepare second] at different
  exact different

/-- What is prepared does not depend on the order in which a tile lists its features. -/
theorem map_unplaced_prepareAll [Scalar.Ranked W] (tile : Tile W N) {features : List (Feature W N)}
    (perm : features.Perm tile.features)
    (numbered : ∀ feature ∈ tile.features, feature.id.isSome = true)
    (distinct : (tile.features.map Feature.id).Nodup) :
    (style.prepareAll { tile with features }).1.map Prepared.unplaced =
      (style.prepareAll tile).1.map Prepared.unplaced := by
  rw [prepareAll_fst, prepareAll_fst]
  refine Prepared.sorted_perm (style.nodup_drawNumber _ numbered distinct) ?_
  rw [map_unplaced_listed, map_unplaced_listed]
  exact perm.filterMap _

end CompiledStyle

/-! ## Buffers -/

/-- A symbol without the position of its feature. -/
def SymbolPlacement.unplaced (s : SymbolPlacement W) : SymbolPlacement W := { s with feature := 0 }

/-- Two tiles are drawn alike: their buffers hold the same vertices, indices and ranges, and symbols
that differ at most in the positions they name. -/
structure TileBuffers.DrawnAlike (a b : TileBuffers W N) : Prop where
  vertices : a.vertices = b.vertices
  indices : a.indices = b.indices
  drawRanges : a.drawRanges = b.drawRanges
  layout : a.layout = b.layout
  featureCount : a.featureCount = b.featureCount
  symbols : a.symbols.map SymbolPlacement.unplaced = b.symbols.map SymbolPlacement.unplaced

namespace Tessellator

variable (t : Tessellator N)

theorem drawKind_unplaced (features : List (Prepared W N)) :
    t.drawKind (features.map Prepared.unplaced) = t.drawKind features := by
  funext drawn kind
  have pieces : (features.map Prepared.unplaced).flatMap (t.pieces kind) =
      features.flatMap (t.pieces kind) := by
    rw [List.flatMap_map]
    rfl
  simp only [drawKind, pieces]

theorem draw_unplaced (style : CompiledStyle W N) (features : List (Prepared W N)) :
    t.draw style (features.map Prepared.unplaced) = t.draw style features := by
  rw [draw, drawKind_unplaced]
  rfl

omit [Scalar N] [Precision W N] in
theorem symbolsOf_unplaced (features : List (Prepared W N)) :
    (features.map Prepared.unplaced).flatMap symbolsOf =
      (features.flatMap symbolsOf).map SymbolPlacement.unplaced := by
  rw [List.flatMap_map, List.map_flatMap]
  refine congrArg (List.flatMap · features) (funext fun p => ?_)
  rw [symbolsOf, symbolsOf, apply_ite (List.map SymbolPlacement.unplaced), List.map_map]
  rfl

/-- A tile whose features have numbers of their own is drawn alike in whatever order it lists
them. -/
theorem build_perm [Scalar.Ranked W] (style : CompiledStyle W N) (tile : Tile W N)
    {features : List (Feature W N)} (perm : features.Perm tile.features)
    (numbered : ∀ feature ∈ tile.features, feature.id.isSome = true)
    (distinct : (tile.features.map Feature.id).Nodup) :
    (t.build style { tile with features }).DrawnAlike (t.build style tile) := by
  have prepared := style.map_unplaced_prepareAll tile perm numbered distinct
  have drawn : t.draw style (style.prepareAll { tile with features }).1 =
      t.draw style (style.prepareAll tile).1 := by
    rw [← draw_unplaced, prepared, draw_unplaced]
  exact {
    vertices := congrArg (fun drawn => drawn.1.words) drawn
    indices := congrArg (fun drawn => drawn.1.indices) drawn
    drawRanges := congrArg Prod.snd drawn
    layout := rfl
    featureCount := by
      have := congrArg List.length prepared
      rwa [List.length_map, List.length_map] at this
    symbols := by
      have := congrArg (List.flatMap symbolsOf) prepared
      rwa [symbolsOf_unplaced, symbolsOf_unplaced] at this }

/-- Circles with names, the higher ones in front. -/
def namedCircles : StyleSpec Double Single :=
  { StyleSpec.empty with
    properties := ((Dictionary.empty.insert "circle-radius" (.number (.integer 3))).insert "z-index"
      (.array [.string "get", .string "height"])).insert "text-field"
        (.array [.string "get", .string "name"]) }

/-- Three summits, the lowest first and then by their numbers. -/
def summits : Tile Double Single :=
  let summit (id : UInt64) (name : String) (height : Nat) : Feature Double Single :=
    ⟨some id, .points [⟨Scalar.ofNat height, Scalar.one⟩],
      (Dictionary.empty.insert "name" (.string name)).insert "height"
        (.number (Scalar.ofNat height))⟩
  { id := ⟨3, 1, 1⟩
    generation := 1
    features := [summit 9 "hill" 4, summit 2 "ridge" 7, summit 5 "peak" 7] }

/-- Listed backwards, the summits are still drawn from the lowest to the highest. -/
theorem summits_drawnAlike :
    ∃ style, CompiledStyle.ofSpec namedCircles = .ok style ∧
      ((exact Scalar.one).build style summits).symbols.map SymbolPlacement.text =
        [some "hill", some "ridge", some "peak"] ∧
      ((exact Scalar.one).build style
        { summits with features := summits.features.reverse }).DrawnAlike
          ((exact Scalar.one).build style summits) := by
  let listed (style : CompiledStyle Double Single) :=
    style.listed (Scalar.ofNat summits.id.z.toNat) summits.features
  obtain ⟨style, compiled, ordered, texts⟩ : ∃ style,
      CompiledStyle.ofSpec namedCircles = .ok style ∧
      ((listed style).Pairwise fun a b => (!b.precedes a) = true) ∧
      ((listed style).flatMap symbolsOf).map SymbolPlacement.text =
        [some "hill", some "ridge", some "peak"] :=
    ⟨_, rfl, by decide +kernel, by decide +kernel⟩
  refine ⟨style, compiled, ?_, ?_⟩
  · have sorted : (style.prepareAll summits).1 = listed style :=
      Prepared.sorted_of_pairwise ordered
    rw [← texts, ← sorted]
    rfl
  · exact build_perm _ style summits (List.reverse_perm _) (by decide) (by decide)

end Tessellator

end MapStyle
