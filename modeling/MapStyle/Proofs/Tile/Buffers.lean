import MapStyle.Proofs.Tile.Features
import MapStyle.Proofs.Tile.Mesh

/-!
# Buffers that a device can draw

The programs of a style draw one after the other, each behind what is already drawn. A
program refers to its own vertices only and leaves the ranges of the others as they are, so
the ranges follow one another without a gap and in the order of the programs. Every vertex
carries the words of the feature it was drawn for.
-/

namespace MapStyle

/-! ## Ranges -/

namespace DrawRange

/-- Ranges follow one another from a first index up to the index after the last. -/
def Consecutive (start : Nat) : List DrawRange → Nat → Prop
  | [], stop => start = stop
  | r :: rest, stop => r.first = start ∧ Consecutive r.stop rest stop

theorem Consecutive.start_le {start stop : Nat} {ranges : List DrawRange}
    (consecutive : Consecutive start ranges stop) : start ≤ stop := by
  induction ranges generalizing start with
  | nil => exact Nat.le_of_eq consecutive
  | cons r rest ih =>
    have := ih consecutive.2
    have := consecutive.1
    simp only [DrawRange.stop] at *
    omega

theorem Consecutive.stop_le {start stop : Nat} {ranges : List DrawRange} {r : DrawRange}
    (consecutive : Consecutive start ranges stop) (member : r ∈ ranges) : r.stop ≤ stop := by
  induction ranges generalizing start with
  | nil => cases member
  | cons first rest ih =>
    rcases List.mem_cons.1 member with rfl | later
    · exact consecutive.2.start_le
    · exact ih consecutive.2 later

theorem Consecutive.concat {start stop : Nat} {ranges : List DrawRange} {r : DrawRange}
    (consecutive : Consecutive start ranges stop) (next : r.first = stop) :
    Consecutive start (ranges ++ [r]) r.stop := by
  induction ranges generalizing start with
  | nil => exact ⟨next.trans consecutive.symm, rfl⟩
  | cons first rest ih => exact ⟨consecutive.1, ih consecutive.2⟩

end DrawRange

variable {W N : Type} [Scalar W] [Scalar N] [Precision W N]

/-- The vertices of some features have so many words. -/
def Prepared.Sized (vertexWords : Nat) (features : List (Prepared W N)) : Prop :=
  ∀ p ∈ features, baseWords + p.words.length = vertexWords

/-- The programs of a style, in the order in which they draw. -/
def CompiledStyle.drawnKinds (style : CompiledStyle W N) : List ProgramKind :=
  ProgramKind.all.filter style.hasProgram

namespace Tessellator

variable (t : Tessellator N)

theorem wellFormed_of_mem_pieces (closed : ∀ rings, (t.triangulate rings).IsClosed)
    {kind : ProgramKind} {p : Prepared W N} {piece : Piece N} (member : piece ∈ t.pieces kind p) :
    piece.WellFormed := by
  cases kind with
  | fill =>
    simp only [pieces] at member
    split at member
    next =>
      obtain ⟨rings, -, rfl⟩ := List.mem_map.1 member
      exact Piece.wellFormed_ofTriangulation (closed _)
    next => cases member
  | stroke =>
    obtain ⟨s, -, drawn⟩ := List.mem_filterMap.1 member
    exact (Piece.of_ofSegment? drawn).1
  | symbol =>
    obtain ⟨place, -, rfl⟩ := List.mem_map.1 member
    exact (Piece.of_ofPlace place).1

theorem carries_of_mem_pieces {kind : ProgramKind} {p : Prepared W N} {piece : Piece N}
    (member : piece ∈ t.pieces kind p) : piece.Carries p.words := by
  cases kind with
  | fill =>
    simp only [pieces] at member
    split at member
    next =>
      obtain ⟨rings, -, rfl⟩ := List.mem_map.1 member
      exact Piece.carries_ofTriangulation _
    next => cases member
  | stroke =>
    obtain ⟨s, -, drawn⟩ := List.mem_filterMap.1 member
    exact (Piece.of_ofSegment? drawn).2.1
  | symbol =>
    obtain ⟨place, -, rfl⟩ := List.mem_map.1 member
    exact (Piece.of_ofPlace place).2.1

/-- Strokes and symbols are drawn in quads. -/
theorem isQuad_of_mem_pieces {kind : ProgramKind} (quads : kind ≠ .fill) {p : Prepared W N} :
    ∀ piece ∈ t.pieces kind p, piece.IsQuad := by
  intro piece member
  cases kind with
  | fill => exact absurd rfl quads
  | stroke =>
    obtain ⟨s, -, drawn⟩ := List.mem_filterMap.1 member
    exact (Piece.of_ofSegment? drawn).2.2
  | symbol =>
    obtain ⟨place, -, rfl⟩ := List.mem_map.1 member
    exact (Piece.of_ofPlace place).2.2

/-- What a stroke or the symbols of a feature add to what is drawn, by number. -/
theorem counts_drawKind {kind : ProgramKind} (quads : kind ≠ .fill) (p : Prepared W N)
    (drawn : Mesh N × List DrawRange) :
    let after := t.drawKind [p] drawn kind
    let count := (t.pieces kind p).length
    after.1.vertices.length = drawn.1.vertices.length + 4 * count ∧
      after.1.indices.length = drawn.1.indices.length + 6 * count ∧
      after.2 = if count = 0 then drawn.2
        else drawn.2 ++ [⟨kind, drawn.1.indices.length, 6 * count⟩] := by
  obtain ⟨vertices, indices⟩ := Mesh.length_append_quads
    (t.isQuad_of_mem_pieces quads (p := p)) drawn.1
  have none (count : Nat) : 6 * count = 0 ↔ count = 0 := by omega
  simp only [drawKind, List.flatMap_singleton]
  refine ⟨vertices, indices, ?_⟩
  simp only [indices, Nat.add_sub_cancel_left, none]

variable (features : List (Prepared W N))

/-- The vertices that a program emits. -/
def pass (kind : ProgramKind) : List (Vertex N) :=
  (features.flatMap (t.pieces kind)).flatMap Piece.vertices

theorem exists_of_mem_pass {kind : ProgramKind} {v : Vertex N} (member : v ∈ t.pass features kind) :
    ∃ p ∈ features, v.attributes = p.words := by
  obtain ⟨piece, drawn, inPiece⟩ := List.mem_flatMap.1 member
  obtain ⟨p, prepared, inPieces⟩ := List.mem_flatMap.1 drawn
  exact ⟨p, prepared, t.carries_of_mem_pieces inPieces v inPiece⟩

/-- The number of vertices that are emitted ahead of those of a program. -/
def verticesOf (kinds : List ProgramKind) : Nat := (kinds.flatMap (t.pass features)).length

/-! ## Programs, one after the other -/

/-- What has been drawn by some programs, in their order, in vertices of so many words. -/
structure Drawn (vertexWords : Nat) (kinds : List ProgramKind)
    (drawn : Mesh N × List DrawRange) : Prop where
  vertexWords : drawn.1.vertexWords = vertexWords
  /-- The vertices are those the programs emitted. -/
  vertices : drawn.1.vertices = kinds.flatMap (t.pass features)
  bounded : ∀ i ∈ drawn.1.indices, i < drawn.1.vertices.length
  /-- There is at most one range for each program. -/
  ordered : (drawn.2.map DrawRange.kind).Sublist kinds
  triangles : ∀ r ∈ drawn.2, 0 < r.count ∧ 3 ∣ r.count
  consecutive : DrawRange.Consecutive 0 drawn.2 drawn.1.indices.length
  /-- The indices of a range refer to vertices its program emitted. -/
  own : ∀ r ∈ drawn.2, ∃ earlier later, kinds = earlier ++ r.kind :: later ∧
    ∀ i ∈ (drawn.1.indices.drop r.first).take r.count,
      t.verticesOf features earlier ≤ i ∧ i < t.verticesOf features (earlier ++ [r.kind])

theorem drawn_empty (vertexWords : Nat) :
    t.Drawn features vertexWords [] (Mesh.empty vertexWords, []) where
  vertexWords := rfl
  vertices := rfl
  bounded _ member := nomatch member
  ordered := List.Sublist.refl _
  triangles _ member := nomatch member
  consecutive := rfl
  own _ member := nomatch member

variable {t features}

theorem verticesOf_concat (kinds : List ProgramKind) (kind : ProgramKind) :
    t.verticesOf features (kinds ++ [kind]) =
      t.verticesOf features kinds + (t.pass features kind).length := by
  simp [verticesOf]

/-- What a program adds to a mesh whose vertices have as many words as those of the features. -/
theorem drawKind_eq {mesh : Mesh N} (sized : Prepared.Sized mesh.vertexWords features)
    (ranges : List DrawRange) (kind : ProgramKind) :
    let added := Mesh.indicesFrom mesh.nextIndex (features.flatMap (t.pieces kind))
    t.drawKind features (mesh, ranges) kind =
      ({ mesh with
          vertices := mesh.vertices ++ t.pass features kind
          indices := mesh.indices ++ added },
        if added = [] then ranges
        else ranges ++ [⟨kind, mesh.indices.length, added.length⟩]) := by
  have each : ∀ piece ∈ features.flatMap (t.pieces kind), mesh.Fits piece.vertices := by
    intro piece member v inPiece
    obtain ⟨p, prepared, inPieces⟩ := List.mem_flatMap.1 member
    rw [Vertex.length_words, t.carries_of_mem_pieces inPieces v inPiece, sized p prepared]
  simp only [drawKind, Mesh.append_eq each, List.length_append, Nat.add_sub_cancel_left,
    List.length_eq_zero_iff]
  rfl

/-- What a program lays out behind others are whole triangles between the vertices it emits. -/
theorem indicesFrom_verticesOf (closed : ∀ rings, (t.triangulate rings).IsClosed)
    (features : List (Prepared W N)) (kinds : List ProgramKind) (kind : ProgramKind) :
    let added := Mesh.indicesFrom (t.verticesOf features kinds) (features.flatMap (t.pieces kind))
    3 ∣ added.length ∧ ∀ i ∈ added, t.verticesOf features kinds ≤ i ∧
      i < t.verticesOf features (kinds ++ [kind]) := by
  have wellFormed : ∀ piece ∈ features.flatMap (t.pieces kind),
      3 ∣ piece.indices.length ∧ ∀ i ∈ piece.indices, i < piece.vertices.length := by
    intro piece member
    obtain ⟨p, -, ofFeature⟩ := List.mem_flatMap.1 member
    have := t.wellFormed_of_mem_pieces closed ofFeature
    exact ⟨this.triangles, this.closed⟩
  refine ⟨Mesh.dvd_length_indicesFrom _ fun piece member => (wellFormed piece member).1, ?_⟩
  rw [verticesOf_concat]
  exact fun i => Mesh.mem_indicesFrom fun piece member => (wellFormed piece member).2

/-- The range of a program keeps its indices when more are laid out behind them. -/
theorem Drawn.own_append {vertexWords : Nat} {kinds : List ProgramKind}
    {drawn : Mesh N × List DrawRange} (before : t.Drawn features vertexWords kinds drawn)
    (kind : ProgramKind) (added : List Nat) {r : DrawRange} (member : r ∈ drawn.2) :
    ∃ earlier later, kinds ++ [kind] = earlier ++ r.kind :: later ∧
      ∀ i ∈ ((drawn.1.indices ++ added).drop r.first).take r.count,
        t.verticesOf features earlier ≤ i ∧ i < t.verticesOf features (earlier ++ [r.kind]) := by
  obtain ⟨earlier, later, split, within⟩ := before.own r member
  -- The range ends where something was laid out before, so it is cut out of that alone.
  have stop : r.first + r.count ≤ drawn.1.indices.length := before.consecutive.stop_le member
  have same : ((drawn.1.indices ++ added).drop r.first).take r.count =
      (drawn.1.indices.drop r.first).take r.count := by
    rw [List.drop_append_of_le_length (by omega), List.take_append_of_le_length]
    rw [List.length_drop]
    omega
  exact ⟨earlier, later ++ [kind], by rw [split, List.append_assoc, List.cons_append],
    same ▸ within⟩

/-- What is drawn has as many words to a vertex as its features say. -/
theorem Drawn.fits {vertexWords : Nat} {kinds : List ProgramKind}
    {drawn : Mesh N × List DrawRange} (sized : Prepared.Sized vertexWords features)
    (before : t.Drawn features vertexWords kinds drawn) : drawn.1.Fits drawn.1.vertices := by
  intro v member
  rw [before.vertices] at member
  obtain ⟨kind, -, emitted⟩ := List.mem_flatMap.1 member
  obtain ⟨p, prepared, carries⟩ := t.exists_of_mem_pass features emitted
  rw [Vertex.length_words, carries, sized p prepared, before.vertexWords]

/-- One more program draws behind the others. -/
theorem Drawn.step (closed : ∀ rings, (t.triangulate rings).IsClosed) {vertexWords : Nat}
    (sized : Prepared.Sized vertexWords features) {kinds : List ProgramKind}
    {drawn : Mesh N × List DrawRange} (before : t.Drawn features vertexWords kinds drawn)
    (kind : ProgramKind) :
    t.Drawn features vertexWords (kinds ++ [kind]) (t.drawKind features drawn kind) := by
  have counted := Mesh.nextIndex_eq_length (before.fits sized)
  have emitted : drawn.1.vertices.length = t.verticesOf features kinds :=
    congrArg List.length before.vertices
  obtain ⟨mesh, ranges⟩ := drawn
  obtain rfl : mesh.vertexWords = vertexWords := before.vertexWords
  have vertices : mesh.vertices ++ t.pass features kind =
      (kinds ++ [kind]).flatMap (t.pass features) := by
    rw [before.vertices, List.flatMap_append, List.flatMap_singleton]
  obtain ⟨whole, within⟩ := indicesFrom_verticesOf closed features kinds kind
  rw [drawKind_eq sized, counted, emitted]
  generalize Mesh.indicesFrom (t.verticesOf features kinds) (features.flatMap (t.pieces kind)) =
    added at whole within ⊢
  have bounded : ∀ i ∈ mesh.indices ++ added,
      i < (mesh.vertices ++ t.pass features kind).length := by
    rw [List.length_append, emitted, ← verticesOf_concat]
    refine List.forall_mem_append.2 ⟨fun i member => ?_, fun i member => (within i member).2⟩
    have := before.bounded i member
    rw [verticesOf_concat, ← emitted]
    exact Nat.lt_add_right _ this
  -- A program that lays out no index has no range, although it may have emitted vertices.
  by_cases nothing : added = []
  · subst nothing
    rw [if_pos rfl]
    have consecutive := before.consecutive
    exact {
      vertexWords := rfl
      vertices, bounded
      ordered := before.ordered.trans (List.sublist_append_left _ _)
      triangles := before.triangles
      consecutive := by simpa using consecutive
      own := fun r => before.own_append kind [] }
  · rw [if_neg nothing]
    exact {
      vertexWords := rfl
      vertices, bounded
      ordered := by
        rw [List.map_append]
        exact before.ordered.append (List.Sublist.refl _)
      triangles := List.forall_mem_append.2 ⟨before.triangles,
        List.forall_mem_singleton.2 ⟨List.length_pos_iff.2 nothing, whole⟩⟩
      consecutive := by
        have := before.consecutive.concat (r := ⟨kind, mesh.indices.length, added.length⟩) rfl
        simpa [DrawRange.stop] using this
      own := List.forall_mem_append.2 ⟨fun r => before.own_append kind added,
        List.forall_mem_singleton.2 ⟨kinds, [], rfl, by simpa using within⟩⟩ }

/-- Some programs draw behind others. -/
theorem Drawn.run (closed : ∀ rings, (t.triangulate rings).IsClosed) {vertexWords : Nat}
    (sized : Prepared.Sized vertexWords features) {before : List ProgramKind}
    {drawn : Mesh N × List DrawRange} (start : t.Drawn features vertexWords before drawn)
    (kinds : List ProgramKind) :
    t.Drawn features vertexWords (before ++ kinds) (kinds.foldl (t.drawKind features) drawn) := by
  induction kinds generalizing before drawn with
  | nil => simpa using start
  | cons kind rest ih =>
    rw [List.append_cons]
    exact ih (start.step closed sized kind)

/-- The features of a tile have as many words as the plan of the style gives a vertex. -/
theorem sized_prepareAll (style : CompiledStyle W N) (tile : Tile W N) :
    Prepared.Sized style.plan.vertexWords (style.prepareAll tile).1 := by
  intro p prepared
  obtain ⟨index, feature, -, rfl⟩ := style.mem_prepareAll.1 prepared
  exact congrArg (baseWords + ·) (style.length_featureWords _ _)

/-- A style draws with its programs, one after the other. -/
theorem drawn_draw (closed : ∀ rings, (t.triangulate rings).IsClosed) (style : CompiledStyle W N)
    {features : List (Prepared W N)} (sized : Prepared.Sized style.plan.vertexWords features) :
    t.Drawn features style.plan.vertexWords style.drawnKinds (t.draw style features) :=
  (t.drawn_empty features style.plan.vertexWords).run closed sized style.drawnKinds

end Tessellator

/-- The buffers of a tile under a style are such that a device can draw them. -/
structure TileBuffers.WellFormed (t : Tessellator N) (style : CompiledStyle W N) (tile : Tile W N)
    (b : TileBuffers W N) : Prop where
  /-- The vertices are those the programs emit for the prepared features, program by program. -/
  vertices : b.vertices =
    (style.drawnKinds.flatMap (t.pass (style.prepareAll tile).1)).flatMap Vertex.words
  whole : style.plan.vertexWords ∣ b.vertices.length
  bounded : ∀ i ∈ b.indices, i < b.vertices.length / style.plan.vertexWords
  /-- There is at most one range for each kind of program, fills ahead of strokes ahead of
  symbols. -/
  ordered : (b.drawRanges.map DrawRange.kind).Sublist ProgramKind.all
  triangles : ∀ r ∈ b.drawRanges, 0 < r.count ∧ 3 ∣ r.count
  /-- The ranges cut all indices up, in their order. -/
  consecutive : DrawRange.Consecutive 0 b.drawRanges b.indices.length
  /-- The indices of a range refer to vertices its program emitted. -/
  own : ∀ r ∈ b.drawRanges, ∃ earlier later, style.drawnKinds = earlier ++ r.kind :: later ∧
    ∀ i ∈ b.drawn r, t.verticesOf (style.prepareAll tile).1 earlier ≤ i ∧
      i < t.verticesOf (style.prepareAll tile).1 (earlier ++ [r.kind])
  /-- Every vertex carries the words of one surviving feature, all of them and no others. -/
  attributes : ∀ i < b.vertices.length / style.plan.vertexWords, ∃ index feature,
    style.Survives tile index feature ∧
      let words := (style.featureWords (style.tileContext tile feature) index).1
      (b.vertices.drop (i * style.plan.vertexWords + baseWords)).take style.plan.stride = words ∧
        words.length = style.plan.stride

namespace Tessellator

variable {t : Tessellator N}

/-- A vertex carries the words of a survivor. -/
theorem exists_survives_of_mem {style : CompiledStyle W N} {tile : Tile W N}
    {kinds : List ProgramKind} {v : Vertex N}
    (member : v ∈ kinds.flatMap (t.pass (style.prepareAll tile).1)) :
    ∃ index feature, style.Survives tile index feature ∧
      v.attributes = (style.featureWords (style.tileContext tile feature) index).1 := by
  obtain ⟨kind, -, emitted⟩ := List.mem_flatMap.1 member
  obtain ⟨p, prepared, carries⟩ := t.exists_of_mem_pass _ emitted
  obtain ⟨index, feature, survives, rfl⟩ := style.mem_prepareAll.1 prepared
  exact ⟨index, feature, survives, carries⟩

/-- Whatever a tile lists and whatever fails while its features are prepared, its buffers can be
drawn. -/
theorem build_wellFormed (t : Tessellator N) (closed : ∀ rings, (t.triangulate rings).IsClosed)
    (style : CompiledStyle W N) (tile : Tile W N) :
    (t.build style tile).WellFormed t style tile := by
  have sized := sized_prepareAll style tile
  have drawn := drawn_draw closed style sized
  have each : ∀ v ∈ style.drawnKinds.flatMap (t.pass (style.prepareAll tile).1),
      v.attributes.length = style.plan.stride := by
    intro v member
    obtain ⟨index, feature, -, carries⟩ := exists_survives_of_mem member
    rw [carries, style.length_featureWords]
  have vertices : (t.build style tile).vertices =
      (style.drawnKinds.flatMap (t.pass (style.prepareAll tile).1)).flatMap Vertex.words :=
    congrArg (List.flatMap Vertex.words) drawn.vertices
  have length : (t.build style tile).vertices.length =
      (t.draw style (style.prepareAll tile).1).1.vertices.length * style.plan.vertexWords := by
    have fits := drawn.fits sized
    rw [Mesh.Fits, drawn.vertexWords, drawn.vertices] at fits
    rw [vertices, Vertex.length_flatMap_words fits, drawn.vertices]
  have count : (t.build style tile).vertices.length / style.plan.vertexWords =
      (t.draw style (style.prepareAll tile).1).1.vertices.length :=
    length ▸ Nat.mul_div_cancel _ (Nat.add_pos_left (by decide) _)
  refine {
    vertices
    whole := length ▸ Nat.dvd_mul_left _ _
    bounded := count ▸ drawn.bounded
    ordered := drawn.ordered.trans List.filter_sublist
    triangles := drawn.triangles
    consecutive := drawn.consecutive
    own := drawn.own
    attributes := fun i bound => ?_ }
  rw [count, drawn.vertices] at bound
  obtain ⟨index, feature, survives, carries⟩ :=
    exists_survives_of_mem (List.getElem_mem bound)
  refine ⟨index, feature, survives, ?_, style.length_featureWords _ _⟩
  rw [vertices, ← carries]
  exact Vertex.attributes_flatMap_words each bound

/-- Fills, outlines as wide as a feature property says, and circles. -/
def outlinesByLanes : StyleSpec Double Single :=
  { StyleSpec.empty with
    properties := ((Dictionary.empty.insert "fill-color" (.string "red")).insert "stroke-width"
      (.array [.string "get", .string "lanes"])).insert "circle-radius" (.number (.integer 3)) }

/-- A square whose lanes are no number, and a place. -/
def squareAndPlace : Tile Double Single :=
  let place (x y : Nat) : Point Double := ⟨Scalar.ofNat x, Scalar.ofNat y⟩
  { id := ⟨3, 1, 1⟩
    generation := 1
    features := [
      ⟨some 1, .polygon [[place 0 0, place 4 0, place 4 4, place 0 4]],
        Dictionary.empty.insert "lanes" (.string "two")⟩,
      ⟨some 2, .points [place 1 1],
        Dictionary.empty.insert "lanes" (.number (Scalar.ofNat 2))⟩] }

/-- The width of the outline cannot be evaluated, and yet all three programs draw. -/
theorem squareAndPlace_wellFormed :
    ∃ style, CompiledStyle.ofSpec outlinesByLanes = .ok style ∧
      (∃ feature ∈ squareAndPlace.features, ∃ a ∈ style.plan.attributes, ∃ e,
        CompiledStyle.attributeValue (style.tileContext squareAndPlace feature) a = .error e) ∧
      ((exact Scalar.one).build style squareAndPlace).drawRanges =
        [⟨.fill, 0, 6⟩, ⟨.stroke, 6, 24⟩, ⟨.symbol, 30, 6⟩] ∧
      ((exact Scalar.one).build style squareAndPlace).WellFormed (exact Scalar.one) style
        squareAndPlace := by
  let prepared (style : CompiledStyle Double Single) :=
    style.listed (Scalar.ofNat squareAndPlace.id.z.toNat) squareAndPlace.features
  obtain ⟨style, compiled, fails, ordered, ranges⟩ :
      ∃ style, CompiledStyle.ofSpec outlinesByLanes = .ok style ∧
        (∃ feature ∈ squareAndPlace.features, ∃ a ∈ style.plan.attributes, ∃ e,
          CompiledStyle.attributeValue (style.tileContext squareAndPlace feature) a = .error e) ∧
        ((prepared style).Pairwise fun a b => (!b.precedes a) = true) ∧
        ((exact Scalar.one).draw style (prepared style)).2 =
          [⟨.fill, 0, 6⟩, ⟨.stroke, 6, 24⟩, ⟨.symbol, 30, 6⟩] := by
    refine ⟨_, rfl, ?_, by decide +kernel, by decide +kernel⟩
    exact ⟨_, List.mem_cons_self, _, List.mem_cons_self, _, rfl⟩
  refine ⟨style, compiled, fails, ?_, ?_⟩
  · have sorted : (style.prepareAll squareAndPlace).1 = prepared style :=
      Prepared.sorted_of_pairwise ordered
    rw [← ranges, ← sorted]
    rfl
  · exact build_wellFormed _ Triangulation.isClosed_ofRings style squareAndPlace

end Tessellator

end MapStyle
