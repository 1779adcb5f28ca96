import Mathlib
import MapStyle.Proofs.Tile.Buffers
import MapStyle.Proofs.Tile.Strokes

/-!
# Features of which nothing is drawn

Points and lines are drawn in quads, and a test of the geometry is to tell ahead of time that there
will be none. It is right about points. It compares the places of a line where the quads depend on
their distance, and is wrong about lines that join places that differ by segments the machine cannot
measure: nothing is drawn of them, and yet they are counted and no warning is given.
-/

namespace MapStyle

/-! ## Geometries -/

namespace Geometry

section

variable {W : Type}

/-- The program that draws a geometry in quads. -/
def quadProgram? : Geometry W → Option ProgramKind
  | points _ => some .symbol
  | lines _ => some .stroke
  | polygon _ => none

variable [Scalar W]

theorem isDegenerate_points {places : List (Point W)} :
    (points places).isDegenerate = true ↔ (points places).places = [] := by
  simp [isDegenerate, Geometry.places]

/-- Lines are degenerate when no segment joins finite places that differ. -/
theorem isDegenerate_lines {parts : List (List (Point W))} :
    (lines parts).isDegenerate = true ↔ ∀ s ∈ (lines parts).segments, s.isProper = false := by
  simp only [isDegenerate, segments, Bool.not_eq_true', List.any_eq_false, List.mem_flatMap,
    Bool.not_eq_true]
  constructor
  · rintro each s ⟨part, inside, along⟩
    exact each part inside s along
  · intro each part inside s along
    exact each s ⟨part, inside, along⟩

end

/-- Segments of a geometry join places that differ, and the machine can measure none of them. -/
structure Unmeasured (g : Geometry Double) : Prop where
  proper : ∃ s ∈ g.segments, s.isProper = true
  lost : ∀ s ∈ g.segments, ¬s.Measured

/-- A segment of ordinary length is enough to see a geometry. -/
theorem not_unmeasured_of_reach {g : Geometry Double} {s : Segment Double} (member : s ∈ g.segments)
    (proper : s.isProper = true) (least : 2 ^ (-537 : Int) ≤ s.reach)
    (most : s.reach ≤ 2 ^ (511 : Int)) : ¬g.Unmeasured :=
  fun unmeasured => unmeasured.lost s member (Segment.measured_of_reach proper least most)

end Geometry

/-! ## Quads -/

namespace Tessellator

/-- A program other than the one that draws a geometry in quads draws nothing of it. -/
theorem pieces_of_ne {W N : Type} [Scalar W] [Scalar N] [Precision W N] (t : Tessellator N)
    {p : Prepared W N} {kind other : ProgramKind}
    (matching : p.feature.geometry.quadProgram? = some kind) (apart : other ≠ kind) :
    t.pieces other p = [] := by
  cases geometry : p.feature.geometry with
  | points places =>
    rw [geometry] at matching
    cases matching
    cases other with
    | fill => simp [pieces, geometry, Geometry.fillRings?]
    | stroke => simp [pieces, geometry, Geometry.segments]
    | symbol => exact absurd rfl apart
  | lines parts =>
    rw [geometry] at matching
    cases matching
    cases other with
    | fill => simp [pieces, geometry, Geometry.fillRings?]
    | stroke => exact absurd rfl apart
    | symbol => simp [pieces, geometry, Geometry.places]
  | polygon rings =>
    rw [geometry] at matching
    cases matching

/-- A program that draws nothing of a feature leaves what is drawn as it is. -/
theorem drawKind_of_pieces_nil {W N : Type} [Scalar W] [Scalar N] [Precision W N]
    (t : Tessellator N) {p : Prepared W N} {kind : ProgramKind} (none : t.pieces kind p = [])
    (drawn : Mesh N × List DrawRange) : t.drawKind [p] drawn kind = drawn := by
  simp [drawKind, none, Mesh.append]

/-- There is a new vertex, and there is a new index, exactly where a quad is drawn. -/
theorem drawKind_eq_iff {W N : Type} [Scalar W] [Scalar N] [Precision W N] (t : Tessellator N)
    {p : Prepared W N} {kind : ProgramKind}
    (matching : p.feature.geometry.quadProgram? = some kind) (drawn : Mesh N × List DrawRange) :
    ((t.drawKind [p] drawn kind).1.vertices = drawn.1.vertices ↔ t.pieces kind p = []) ∧
      ((t.drawKind [p] drawn kind).1.indices = drawn.1.indices ↔ t.pieces kind p = []) := by
  have quads : kind ≠ .fill := by
    rintro rfl
    cases geometry : p.feature.geometry <;> rw [geometry] at matching <;> cases matching
  obtain ⟨vertices, indices, -⟩ := t.counts_drawKind quads p drawn
  have unchanged (none : t.pieces kind p = []) := t.drawKind_of_pieces_nil none drawn
  refine ⟨⟨fun same => ?_, fun none => by rw [unchanged none]⟩,
    ⟨fun same => ?_, fun none => by rw [unchanged none]⟩⟩
  · rw [same] at vertices
    exact List.length_eq_zero_iff.1 (by omega)
  · rw [same] at indices
    exact List.length_eq_zero_iff.1 (by omega)

/-- A stroke is empty when the machine can measure none of its segments. -/
theorem pieces_stroke_eq_nil {t : Tessellator Single} {p : Prepared Double Single} :
    t.pieces .stroke p = [] ↔ ∀ s ∈ p.feature.geometry.segments, ¬s.Measured := by
  rw [pieces, List.filterMap_eq_nil_iff]
  refine forall₂_congr fun s _ => ?_
  rw [← Option.not_isSome_iff_eq_none, Segment.isSome_ofSegment?]

/-- Nothing is drawn of a geometry exactly where it is degenerate, or a line that the machine cannot
measure. -/
theorem pieces_eq_nil_iff (t : Tessellator Single) {p : Prepared Double Single} {kind : ProgramKind}
    (matching : p.feature.geometry.quadProgram? = some kind) :
    t.pieces kind p = [] ↔ p.feature.geometry.isDegenerate = true ∨
      (kind = .stroke ∧ p.feature.geometry.Unmeasured) := by
  cases geometry : p.feature.geometry with
  | points places =>
    rw [geometry] at matching
    cases matching
    have noStroke : ¬(ProgramKind.symbol = .stroke ∧ (Geometry.points places).Unmeasured) :=
      fun lost => nomatch lost.1
    rw [or_iff_left noStroke, Geometry.isDegenerate_points, pieces, geometry, List.map_eq_nil_iff]
  | lines parts =>
    rw [geometry] at matching
    cases matching
    rw [pieces_stroke_eq_nil, geometry, Geometry.isDegenerate_lines, and_iff_right rfl]
    constructor
    · intro lost
      by_cases proper : ∃ s ∈ (Geometry.lines parts).segments, s.isProper = true
      · exact .inr ⟨proper, lost⟩
      · refine .inl fun s member => Bool.eq_false_iff.2 fun joins => ?_
        exact proper ⟨s, member, joins⟩
    · rintro (improper | unmeasured) s member measured
      · exact absurd measured.isProper (Bool.eq_false_iff.1 (improper s member))
      · exact unmeasured.lost s member measured
  | polygon rings =>
    rw [geometry] at matching
    cases matching

end Tessellator

/-! ## Warnings -/

variable {W N : Type} [Scalar W] [Scalar N] [Precision W N]

namespace TileWarning

/-- The warning that nothing can be drawn of a geometry. -/
def isDegeneracy {W : Type} : TileWarning W → Bool
  | degenerateGeometry _ _ => true
  | _ => false

theorem isDegeneracy_ofError {W : Type} (index : Nat) (target : String) (e : EvalError) :
    (ofError index target e : TileWarning W).isDegeneracy = false := by
  cases e <;> rfl

end TileWarning

namespace CompiledStyle

variable (style : CompiledStyle W N)

theorem isDegeneracy_evaluateOrDefault {c : Context W N} {index : Nat} {property : StyleProperty}
    {warning : TileWarning W} (warned : warning ∈ (style.evaluateOrDefault c index property).2) :
    warning.isDegeneracy = false := by
  unfold evaluateOrDefault at warned
  cases result : style.evaluate property c with
  | ok value =>
    rw [result] at warned
    cases warned
  | error e =>
    rw [result] at warned
    obtain rfl := List.mem_singleton.1 warned
    exact TileWarning.isDegeneracy_ofError _ _ _

theorem isDegeneracy_attributeWords {c : Context W N} {index : Nat} {a : Attribute W N}
    {warning : TileWarning W} (warned : warning ∈ (attributeWords c index a).2) :
    warning.isDegeneracy = false := by
  unfold attributeWords at warned
  rcases List.mem_append.1 warned with failed | packed
  · cases result : attributeValue c a with
    | ok value =>
      rw [result] at failed
      cases failed
    | error e =>
      rw [result] at failed
      obtain rfl := List.mem_singleton.1 failed
      exact TileWarning.isDegeneracy_ofError _ _ _
  · obtain ⟨issue, -, rfl⟩ := Option.mem_map.1 (Option.mem_toList.1 packed)
    rfl

theorem isDegeneracy_symbolContents {c : Context W N} {index : Nat} {geometry : Geometry W}
    {warning : TileWarning W} (warned : warning ∈ (style.symbolContents c index geometry).2) :
    warning.isDegeneracy = false := by
  unfold symbolContents at warned
  split at warned
  · rcases List.mem_append.1 warned with icon | text
    · exact style.isDegeneracy_evaluateOrDefault icon
    · exact style.isDegeneracy_evaluateOrDefault text
  · cases warned

/-- Whatever goes wrong with a feature that is drawn, its geometry is not to blame. -/
theorem isDegeneracy_prepareDrawn {c : Context W N} {index : Nat} {feature : Feature W N}
    {warning : TileWarning W} (warned : warning ∈ (style.prepareDrawn c index feature).2) :
    warning.isDegeneracy = false := by
  unfold prepareDrawn at warned
  rcases List.mem_append.1 warned with earlier | symbols
  · rcases List.mem_append.1 earlier with depth | words
    · exact style.isDegeneracy_evaluateOrDefault depth
    · simp only [featureWords, List.flatMap_map] at words
      obtain ⟨a, -, ofAttribute⟩ := List.mem_flatMap.1 words
      exact isDegeneracy_attributeWords ofAttribute
  · exact style.isDegeneracy_symbolContents symbols

/-- A feature is warned about as degenerate when the filter lets it through and it is. -/
theorem degenerateGeometry_mem_prepare {zoom : W} {index i : Nat} {feature : Feature W N}
    {kind : String} :
    .degenerateGeometry i kind ∈ (style.prepare zoom index feature).2 ↔ i = index ∧
      style.passesFilter (style.buildContext feature.properties.get? zoom) = .ok true ∧
        feature.geometry.isDegenerate = true ∧ feature.geometry.kind = kind := by
  rw [prepare]
  cases style.passesFilter (style.buildContext feature.properties.get? zoom) with
  | error e =>
    refine iff_of_false (fun warned => ?_) (by simp)
    have other := TileWarning.isDegeneracy_ofError (W := W) index StyleProperty.filter.name e
    rw [← List.mem_singleton.1 warned] at other
    cases other
  | ok passes =>
    cases passes with
    | false => simp
    | true =>
      cases degenerate : feature.geometry.isDegenerate with
      | true => simp [eq_comm]
      | false =>
        refine iff_of_false (fun warned => ?_) (by simp)
        cases style.isDegeneracy_prepareDrawn warned

theorem degenerateGeometry_mem_prepareAll {tile : Tile W N} {index : Nat} {kind : String} :
    .degenerateGeometry index kind ∈ (style.prepareAll tile).2 ↔ ∃ feature,
      tile.features[index]? = some feature ∧
        style.passesFilter (style.tileContext tile feature) = .ok true ∧
        feature.geometry.isDegenerate = true ∧ feature.geometry.kind = kind := by
  simp only [prepareAll, List.mem_flatMap, List.mem_map]
  constructor
  · rintro ⟨result, ⟨⟨feature, i⟩, listed, rfl⟩, warned⟩
    obtain ⟨rfl, warned⟩ := style.degenerateGeometry_mem_prepare.1 warned
    exact ⟨feature, List.mem_zipIdx_iff_getElem?.1 listed, warned⟩
  · rintro ⟨feature, found, warned⟩
    refine ⟨_, ⟨(feature, index), List.mem_zipIdx_iff_getElem?.2 found, rfl⟩, ?_⟩
    exact style.degenerateGeometry_mem_prepare.2 ⟨rfl, warned⟩

/-! ## The number of features -/

theorem nodup_index_listed (zoom : W) (features : List (Feature W N)) :
    ((style.listed zoom features).map Prepared.index).Nodup := by
  have positions : features.zipIdx.Pairwise fun a b => a.2 ≠ b.2 := by
    rw [← List.pairwise_map (f := Prod.snd) (R := (· ≠ ·)), List.zipIdx_map_snd]
    exact List.nodup_range'
  rw [listed, List.filterMap_map, List.Nodup, List.pairwise_map]
  refine List.Pairwise.filterMap _ ?_ positions
  rintro ⟨feature, i⟩ ⟨other, j⟩ apart p prepared q prepared'
  obtain ⟨-, -, rfl⟩ := style.prepare_eq_some.1 prepared
  obtain ⟨-, -, rfl⟩ := style.prepare_eq_some.1 prepared'
  exact apart

/-- The survivors of a tile are prepared once each. -/
theorem length_prepareAll (tile : Tile W N) : (style.prepareAll tile).1.length =
    {index | ∃ feature, style.Survives tile index feature}.ncard := by
  have nodup : ((style.prepareAll tile).1.map Prepared.index).Nodup := by
    rw [prepareAll_fst]
    exact ((List.mergeSort_perm _ _).map _).symm.nodup (style.nodup_index_listed _ _)
  have survivors : {index | ∃ feature, style.Survives tile index feature} =
      (((style.prepareAll tile).1.map Prepared.index).toFinset : Set Nat) := by
    ext index
    simp only [Set.mem_ofPred_eq, List.coe_toFinset, List.mem_map, style.mem_prepareAll]
    constructor
    · rintro ⟨feature, survives⟩
      exact ⟨_, ⟨index, feature, survives, rfl⟩, rfl⟩
    · rintro ⟨p, ⟨i, feature, survives, rfl⟩, rfl⟩
      exact ⟨feature, survives⟩
  rw [survivors, Set.ncard_coe_finset, List.toFinset_card_of_nodup nodup, List.length_map]

end CompiledStyle

/-! ## Buffers -/

namespace Tessellator

/-- Nothing is drawn of points and lines exactly where they are degenerate, but for lines that join
places that differ by segments the machine cannot measure: there is neither a new vertex nor a new
index, and there is one of either in all other cases. The warnings of a tile name exactly the
degenerate features that the filter lets through, and all others that it lets through are
counted. -/
theorem build_reported (t : Tessellator Single) (style : CompiledStyle Double Single)
    (tile : Tile Double Single) :
    (∀ (p : Prepared Double Single) (kind : ProgramKind),
      p.feature.geometry.quadProgram? = some kind →
        (t.pieces kind p = [] ↔ p.feature.geometry.isDegenerate = true ∨
          (kind = .stroke ∧ p.feature.geometry.Unmeasured)) ∧
        (∀ other ≠ kind, t.pieces other p = []) ∧
        ∀ drawn : Mesh Single × List DrawRange,
          ((t.drawKind [p] drawn kind).1.vertices = drawn.1.vertices ↔
            p.feature.geometry.isDegenerate = true ∨
              (kind = .stroke ∧ p.feature.geometry.Unmeasured)) ∧
          ((t.drawKind [p] drawn kind).1.indices = drawn.1.indices ↔
            p.feature.geometry.isDegenerate = true ∨
              (kind = .stroke ∧ p.feature.geometry.Unmeasured)) ∧
          ∀ other ≠ kind, t.drawKind [p] drawn other = drawn) ∧
    (∀ index kind, .degenerateGeometry index kind ∈ (t.build style tile).warnings ↔ ∃ feature,
      tile.features[index]? = some feature ∧
        style.passesFilter (style.tileContext tile feature) = .ok true ∧
        feature.geometry.isDegenerate = true ∧ feature.geometry.kind = kind) ∧
    (t.build style tile).featureCount =
      {index | ∃ feature, style.Survives tile index feature}.ncard := by
  refine ⟨fun p kind matching => ?_, fun index kind => style.degenerateGeometry_mem_prepareAll,
    style.length_prepareAll tile⟩
  have others : ∀ other ≠ kind, t.pieces other p = [] := fun _ => t.pieces_of_ne matching
  have drawnNot := t.pieces_eq_nil_iff matching
  refine ⟨drawnNot, others, fun drawn => ?_⟩
  obtain ⟨vertices, indices⟩ := t.drawKind_eq_iff matching drawn
  exact ⟨vertices.trans drawnNot, indices.trans drawnNot,
    fun other apart => t.drawKind_of_pieces_nil (others other apart) drawn⟩

/-- Lines of one width. -/
def plainLines : StyleSpec Double Single :=
  { StyleSpec.empty with
    properties := Dictionary.empty.insert "stroke-width" (.number (.integer 2)) }

/-- A tile of lines between two places each. -/
def tileOfLines (lines : List (Segment Double)) : Tile Double Single :=
  { id := ⟨4, 0, 0⟩
    generation := 0
    features := lines.map fun s => ⟨none, .lines [[s.start, s.finish]], Dictionary.empty⟩ }

/-- The style draws all lines. -/
theorem exists_plainLines : ∃ style, CompiledStyle.ofSpec plainLines = .ok style ∧
    ProgramKind.stroke ∈ style.drawnKinds ∧
    ∀ c : Context Double Single, style.passesFilter c = .ok true :=
  ⟨_, rfl, by decide, fun _ => rfl⟩

/-- A line that ends where it starts. -/
def standstill : Segment Double := ⟨⟨Scalar.one, Scalar.one⟩, ⟨Scalar.one, Scalar.one⟩⟩

/-- A line of length five. -/
def walk : Segment Double := ⟨⟨Scalar.zero, Scalar.zero⟩, ⟨Scalar.ofNat 3, Scalar.ofNat 4⟩⟩

theorem reach_walk : walk.reach = 2 ^ (2 : Int) := by
  have value {n : Nat} (small : n < 5) : (Binary.ofNat n : Double).value = n :=
    (Binary.value_ofNat (small.trans (by decide))).2
  show max |(Binary.ofNat 3 : Double).value - (Binary.ofNat 0 : Double).value|
    |(Binary.ofNat 4 : Double).value - (Binary.ofNat 0 : Double).value| = 2 ^ (2 : Int)
  rw [value (by decide), value (by decide), value (by decide)]
  norm_num

/-- Nothing is drawn of the line that ends where it starts, and the tile says so. The other line is
drawn. -/
theorem standstill_reported : ∃ style, CompiledStyle.ofSpec plainLines = .ok style ∧
    ProgramKind.stroke ∈ style.drawnKinds ∧
    (∀ p : Prepared Double Single,
      p.feature.geometry = .lines [[standstill.start, standstill.finish]] →
        (exact Scalar.one).pieces .stroke p = [] ∧
        ∀ drawn, ((exact Scalar.one).drawKind [p] drawn .stroke).1.indices = drawn.1.indices) ∧
    (∀ p : Prepared Double Single, p.feature.geometry = .lines [[walk.start, walk.finish]] →
      (exact Scalar.one).pieces .stroke p ≠ [] ∧
      ∀ drawn, ((exact Scalar.one).drawKind [p] drawn .stroke).1.indices ≠ drawn.1.indices) ∧
    .degenerateGeometry 0 "line" ∈
      ((exact Scalar.one).build style (tileOfLines [standstill, walk])).warnings ∧
    ((exact Scalar.one).build style (tileOfLines [standstill, walk])).featureCount = 1 := by
  have still : (Geometry.lines [[standstill.start, standstill.finish]]).isDegenerate = true := by
    decide
  have moves : (Geometry.lines [[walk.start, walk.finish]]).isDegenerate = false := by
    decide
  obtain ⟨style, compiled, drawn, passes⟩ := exists_plainLines
  obtain ⟨quads, warned, counted⟩ :=
    build_reported (exact Scalar.one) style (tileOfLines [standstill, walk])
  refine ⟨style, compiled, drawn, fun p geometry => ?_, fun p geometry => ?_, ?_, ?_⟩
  · obtain ⟨pieces, -, mesh⟩ := quads p .stroke (by rw [geometry]; rfl)
    have degenerate : p.feature.geometry.isDegenerate = true := by rw [geometry, still]
    exact ⟨pieces.2 (.inl degenerate), fun drawn => (mesh drawn).2.1.2 (.inl degenerate)⟩
  · obtain ⟨pieces, -, mesh⟩ := quads p .stroke (by rw [geometry]; rfl)
    have seen : ¬(p.feature.geometry.isDegenerate = true ∨
        (ProgramKind.stroke = .stroke ∧ p.feature.geometry.Unmeasured)) := by
      rw [geometry]
      rintro (degenerate | ⟨-, unmeasured⟩)
      · rw [moves] at degenerate
        cases degenerate
      · refine Geometry.not_unmeasured_of_reach (s := walk) (.head _) (by decide) ?_ ?_
          unmeasured
        · rw [reach_walk]
          exact zpow_le_zpow_right₀ one_le_two (by decide)
        · rw [reach_walk]
          exact zpow_le_zpow_right₀ one_le_two (by decide)
    exact ⟨fun none => seen (pieces.1 none), fun drawn same => seen ((mesh drawn).2.1.1 same)⟩
  · exact (warned 0 "line").2 ⟨_, rfl, passes _, still, rfl⟩
  · rw [counted, Set.ncard_eq_one]
    refine ⟨1, Set.eq_singleton_iff_unique_mem.2 ⟨⟨_, rfl, passes _, moves⟩, ?_⟩⟩
    rintro index ⟨feature, survives⟩
    match index, survives with
    | 0, ⟨found, _, drawable⟩ =>
      cases found
      rw [still] at drawable
      cases drawable
    | 1, _ => rfl
    | index + 2, ⟨found, _, _⟩ => cases found

/-- A line so short that its square vanishes. -/
def faint : Segment Double :=
  ⟨⟨Scalar.zero, Scalar.zero⟩, ⟨Scalar.ofDecimal ⟨false, 1, -200⟩, Scalar.zero⟩⟩

/-- A line so long that its square is infinite. -/
def vast : Segment Double :=
  ⟨⟨Scalar.zero, Scalar.zero⟩, ⟨Scalar.ofDecimal ⟨false, 1, 200⟩, Scalar.zero⟩⟩

/-- Neither line is degenerate and nothing is drawn of them: they are counted, and no warning is
given. -/
theorem faint_not_reported : ∃ style, CompiledStyle.ofSpec plainLines = .ok style ∧
    ProgramKind.stroke ∈ style.drawnKinds ∧
    (∀ s ∈ [faint, vast], (Geometry.lines [[s.start, s.finish]]).isDegenerate = false) ∧
    ((exact Scalar.one).build style (tileOfLines [faint, vast])).indices = [] ∧
    ((exact Scalar.one).build style (tileOfLines [faint, vast])).warnings = [] ∧
    ((exact Scalar.one).build style (tileOfLines [faint, vast])).featureCount = 2 := by
  let listed (style : CompiledStyle Double Single) :=
    style.listed (Scalar.ofNat (tileOfLines []).id.z.toNat) (tileOfLines [faint, vast]).features
  obtain ⟨style, compiled, drawn, ordered, undrawn, unwarned⟩ : ∃ style,
      CompiledStyle.ofSpec plainLines = .ok style ∧ ProgramKind.stroke ∈ style.drawnKinds ∧
      ((listed style).Pairwise fun a b => (!b.precedes a) = true) ∧
      (((exact Scalar.one).draw style (listed style)).1.indices = [] ∧ (listed style).length = 2) ∧
      (style.prepareAll (tileOfLines [faint, vast])).2.isEmpty = true :=
    ⟨_, rfl, by decide, by decide +kernel, by decide +kernel, by decide +kernel⟩
  have sorted : (style.prepareAll (tileOfLines [faint, vast])).1 = listed style :=
    Prepared.sorted_of_pairwise ordered
  refine ⟨style, compiled, drawn, by decide +kernel, ?_, List.isEmpty_iff.1 unwarned, ?_⟩
  · rw [← undrawn.1, ← sorted]
    rfl
  · rw [← undrawn.2, ← sorted]
    rfl

end Tessellator

end MapStyle
