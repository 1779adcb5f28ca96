import MapStyle.Tile.Mesh

/-!
# Triangles and their vertices

The triangles of a piece refer to the vertices of that piece. Laid out behind others, they
refer to the same vertices at their new places, and to none of the others. That depends on all
vertices having the same number of words: it is by this number that a mesh divides the words that
are there, to tell how many vertices they are, and that a vertex is found in the buffer.
-/

namespace MapStyle

/-! ## Triangulations -/

namespace Triangulation

theorem mem_joinedPairs {edges : List GridEdge} {points : List GridPoint} {p q : GridPoint}
    (joined : (p, q) ∈ joinedPairs edges points) : p ∈ points ∧ q ∈ points := by
  induction points with
  | nil => cases joined
  | cons first rest ih =>
    rcases List.mem_append.1 joined with ofFirst | later
    · obtain ⟨other, near, same⟩ := List.mem_map.1 ofFirst
      cases same
      exact ⟨List.mem_cons_self, List.mem_cons_of_mem _ ((List.mem_filter.1 near).1)⟩
    · obtain ⟨left, right⟩ := ih later
      exact ⟨List.mem_cons_of_mem _ left, List.mem_cons_of_mem _ right⟩

theorem mem_cycles {edges : List GridEdge} {points : List GridPoint} {p q r : GridPoint}
    (cycle : (p, q, r) ∈ cycles edges points) : p ∈ points ∧ q ∈ points ∧ r ∈ points := by
  induction points with
  | nil => cases cycle
  | cons first rest ih =>
    rcases List.mem_append.1 cycle with ofFirst | later
    · obtain ⟨⟨left, right⟩, joined, same⟩ := List.mem_map.1 ofFirst
      cases same
      obtain ⟨nearLeft, nearRight⟩ := mem_joinedPairs joined
      exact ⟨List.mem_cons_self, List.mem_cons_of_mem _ ((List.mem_filter.1 nearLeft).1),
        List.mem_cons_of_mem _ ((List.mem_filter.1 nearRight).1)⟩
    · obtain ⟨inFirst, inSecond, inThird⟩ := ih later
      exact ⟨List.mem_cons_of_mem _ inFirst, List.mem_cons_of_mem _ inSecond,
        List.mem_cons_of_mem _ inThird⟩

/-- Triangles that are named by the positions of their places are closed when every place of them
is listed. -/
theorem isClosed_idxOf {N : Type} {corners : List (Point N)} {points : List GridPoint}
    {triangles : List (GridPoint × GridPoint × GridPoint)}
    (listed : ∀ p q r, (p, q, r) ∈ triangles → p ∈ points ∧ q ∈ points ∧ r ∈ points)
    (same : points.length = corners.length) :
    IsClosed ⟨corners, triangles.map fun (p, q, r) =>
      ⟨points.idxOf p, points.idxOf q, points.idxOf r⟩⟩ := by
  intro triangle member
  obtain ⟨⟨p, q, r⟩, face, rfl⟩ := List.mem_map.1 member
  obtain ⟨first, second, third⟩ := listed p q r face
  rw [← same]
  exact ⟨List.idxOf_lt_length_of_mem first, List.idxOf_lt_length_of_mem second,
    List.idxOf_lt_length_of_mem third⟩

theorem isClosed_ofRings {f : Format} (rings : List (List (Point (Binary f)))) :
    (ofRings rings).IsClosed := by
  unfold ofRings
  split
  next => exact fun _ member => nomatch member
  next =>
    refine isClosed_idxOf (fun p q r face => ?_) (by simp)
    exact mem_cycles (List.mem_filter.1 face).1

end Triangulation

variable {N : Type}

/-! ## Pieces -/

namespace Piece

/-- A piece consists of whole triangles between its own vertices. -/
structure WellFormed (piece : Piece N) : Prop where
  triangles : 3 ∣ piece.indices.length
  closed : ∀ i ∈ piece.indices, i < piece.vertices.length

/-- All vertices of a piece carry the words of one feature. -/
def Carries (words : List N) (piece : Piece N) : Prop :=
  ∀ v ∈ piece.vertices, v.attributes = words

/-- A piece of two triangles between four vertices. -/
structure IsQuad (piece : Piece N) : Prop where
  vertices : piece.vertices.length = 4
  indices : piece.indices.length = 6

variable {W : Type} [Scalar W] [Scalar N] [Precision W N] {words : List N}

theorem of_ofSegment? {s : Segment W} {piece : Piece N} (drawn : ofSegment? words s = some piece) :
    piece.WellFormed ∧ piece.Carries words ∧ piece.IsQuad := by
  simp only [ofSegment?] at drawn
  split at drawn
  next => cases drawn
  next =>
    cases drawn
    exact ⟨⟨⟨2, rfl⟩, by simp⟩, by simp [Carries], ⟨rfl, rfl⟩⟩

omit [Scalar W] in
theorem of_ofPlace (p : Point W) :
    (ofPlace words p).WellFormed ∧ (ofPlace words p).Carries words ∧ (ofPlace words p).IsQuad :=
  ⟨⟨⟨2, rfl⟩, by simp [ofPlace]⟩, by simp [Carries, ofPlace], ⟨rfl, rfl⟩⟩

omit [Scalar W] [Precision W N] in
theorem wellFormed_ofTriangulation {t : Triangulation N} (closed : t.IsClosed) :
    (ofTriangulation words t).WellFormed where
  triangles := ⟨t.triangles.length, by
    simp [ofTriangulation, List.length_flatMap, List.map_const', Nat.mul_comm]⟩
  closed i member := by
    obtain ⟨triangle, inside, corner⟩ := List.mem_flatMap.1 member
    obtain ⟨first, second, third⟩ := closed triangle inside
    simp only [ofTriangulation, List.length_map]
    simp only [List.mem_cons, List.not_mem_nil, or_false] at corner
    rcases corner with rfl | rfl | rfl
    · exact first
    · exact second
    · exact third

omit [Scalar W] [Precision W N] in
theorem carries_ofTriangulation (t : Triangulation N) :
    (ofTriangulation words t).Carries words := by
  intro v member
  obtain ⟨corner, -, rfl⟩ := List.mem_map.1 member
  rfl

end Piece

/-! ## Words of vertices -/

namespace Vertex

variable {vertices : List (Vertex N)} {stride : Nat}

theorem length_words {v : Vertex N} : v.words.length = baseWords + v.attributes.length := by
  simp [words, baseWords]
  omega

theorem length_flatMap_words {count : Nat} (each : ∀ v ∈ vertices, v.words.length = count) :
    (vertices.flatMap words).length = vertices.length * count := by
  rw [List.length_flatMap, List.map_congr_left each, List.map_const', List.sum_replicate_nat]

/-- The words of a vertex stand behind those of the vertices ahead of it. -/
theorem drop_flatMap_words (each : ∀ v ∈ vertices, v.attributes.length = stride) {i : Nat}
    (bound : i < vertices.length) :
    (vertices.flatMap words).drop (i * (baseWords + stride)) =
      vertices[i].words ++ (vertices.drop (i + 1)).flatMap words := by
  have ahead : ((vertices.take i).flatMap words).length = i * (baseWords + stride) := by
    rw [length_flatMap_words fun v member =>
      length_words.trans (congrArg _ (each v (List.mem_of_mem_take member))),
      List.length_take_of_le (Nat.le_of_lt bound)]
  calc (vertices.flatMap words).drop (i * (baseWords + stride))
    _ = ((vertices.take i ++ vertices.drop i).flatMap words).drop (i * (baseWords + stride)) := by
        rw [List.take_append_drop]
    _ = (vertices.drop i).flatMap words := by
        rw [List.flatMap_append, ← ahead, List.drop_left]
    _ = vertices[i].words ++ (vertices.drop (i + 1)).flatMap words := by
        rw [List.drop_eq_getElem_cons bound, List.flatMap_cons]

/-- The attribute words of a vertex stand behind its place and the way it moves. -/
theorem attributes_flatMap_words (each : ∀ v ∈ vertices, v.attributes.length = stride) {i : Nat}
    (bound : i < vertices.length) :
    ((vertices.flatMap words).drop (i * (baseWords + stride) + baseWords)).take stride =
      vertices[i].attributes := by
  have base : ∀ v : Vertex N, v.words.drop baseWords = v.attributes := fun v => rfl
  have enough : baseWords ≤ vertices[i].words.length := length_words ▸ Nat.le_add_right _ _
  rw [← List.drop_drop, drop_flatMap_words each bound, List.drop_append_of_le_length enough, base]
  exact List.take_left' (each _ (List.getElem_mem bound))

end Vertex

/-! ## Meshes -/

namespace Mesh

/-- The indices of pieces that are laid out after so many vertices. -/
def indicesFrom (base : Nat) : List (Piece N) → List Nat
  | [] => []
  | piece :: rest =>
    piece.indices.map (base + ·) ++ indicesFrom (base + piece.vertices.length) rest

theorem dvd_length_indicesFrom {pieces : List (Piece N)} (base : Nat)
    (each : ∀ piece ∈ pieces, 3 ∣ piece.indices.length) :
    3 ∣ (indicesFrom base pieces).length := by
  induction pieces generalizing base with
  | nil => exact Nat.dvd_zero 3
  | cons piece rest ih =>
    obtain ⟨ofPiece, ofRest⟩ := List.forall_mem_cons.1 each
    rw [indicesFrom, List.length_append, List.length_map]
    exact Nat.dvd_add ofPiece (ih _ ofRest)

/-- Pieces refer to vertices between the first that is laid out with them and the last. -/
theorem mem_indicesFrom {pieces : List (Piece N)} {base i : Nat}
    (each : ∀ piece ∈ pieces, ∀ j ∈ piece.indices, j < piece.vertices.length)
    (member : i ∈ indicesFrom base pieces) :
    base ≤ i ∧ i < base + (pieces.flatMap Piece.vertices).length := by
  induction pieces generalizing base with
  | nil => cases member
  | cons piece rest ih =>
    obtain ⟨ofPiece, ofRest⟩ := List.forall_mem_cons.1 each
    rw [List.flatMap_cons, List.length_append]
    rcases List.mem_append.1 member with here | later
    · obtain ⟨j, inPiece, rfl⟩ := List.mem_map.1 here
      have := ofPiece j inPiece
      omega
    · have := ih ofRest later
      omega

variable {mesh : Mesh N}

/-! ### The division that numbers vertices -/

/-- Vertices that have as many words as the mesh says. -/
def Fits (mesh : Mesh N) (vertices : List (Vertex N)) : Prop :=
  ∀ v ∈ vertices, v.words.length = mesh.vertexWords

theorem Fits.pos {vertices : List (Vertex N)} (fits : mesh.Fits vertices) (some : vertices ≠ []) :
    0 < mesh.vertexWords := by
  obtain ⟨v, rest, rfl⟩ := List.exists_cons_of_ne_nil some
  rw [← fits v List.mem_cons_self, Vertex.length_words]
  exact Nat.add_pos_left (by decide) _

/-- Vertices that fit take up as many numbers as they are: their words are divided without
remainder. -/
theorem nextIndex_append (mesh : Mesh N) {vertices : List (Vertex N)} (fits : mesh.Fits vertices)
    (indices : List Nat) :
    nextIndex { mesh with vertices := mesh.vertices ++ vertices, indices } =
      mesh.nextIndex + vertices.length := by
  by_cases none : vertices = []
  · simp [none, nextIndex, words]
  · simp only [nextIndex, words, List.flatMap_append, List.length_append]
    rw [Vertex.length_flatMap_words fits, Nat.add_mul_div_right _ _ (fits.pos none)]

/-- Where all vertices fit, the next one has the number of those that are there. -/
theorem nextIndex_eq_length (fits : mesh.Fits mesh.vertices) :
    mesh.nextIndex = mesh.vertices.length := by
  have counted := nextIndex_append { mesh with vertices := [] } fits mesh.indices
  simpa [nextIndex, words] using counted

/-- What pieces that fit add to a mesh. -/
theorem append_eq {pieces : List (Piece N)} (fits : ∀ piece ∈ pieces, mesh.Fits piece.vertices) :
    mesh.append pieces =
      { mesh with
        vertices := mesh.vertices ++ pieces.flatMap Piece.vertices
        indices := mesh.indices ++ indicesFrom mesh.nextIndex pieces } := by
  induction pieces generalizing mesh with
  | nil => simp [append, indicesFrom]
  | cons piece rest ih =>
    obtain ⟨ofPiece, ofRest⟩ := List.forall_mem_cons.1 fits
    have next : (mesh.add piece).nextIndex = mesh.nextIndex + piece.vertices.length :=
      nextIndex_append mesh ofPiece _
    have appended : mesh.append (piece :: rest) = (mesh.add piece).append rest := rfl
    rw [appended, @ih (mesh.add piece) ofRest, next]
    simp [add, indicesFrom]

/-- What quads add to a mesh, whatever is there. -/
theorem length_append_quads {pieces : List (Piece N)} (quads : ∀ piece ∈ pieces, piece.IsQuad)
    (mesh : Mesh N) :
    (mesh.append pieces).vertices.length = mesh.vertices.length + 4 * pieces.length ∧
      (mesh.append pieces).indices.length = mesh.indices.length + 6 * pieces.length := by
  induction pieces generalizing mesh with
  | nil => exact ⟨rfl, rfl⟩
  | cons piece rest ih =>
    obtain ⟨ofPiece, ofRest⟩ := List.forall_mem_cons.1 quads
    obtain ⟨vertices, indices⟩ := ih ofRest (mesh.add piece)
    have appended : mesh.append (piece :: rest) = (mesh.add piece).append rest := rfl
    rw [appended, vertices, indices]
    simp only [add, List.length_append, List.length_map, List.length_cons, ofPiece.vertices,
      ofPiece.indices]
    omega

end Mesh

end MapStyle
