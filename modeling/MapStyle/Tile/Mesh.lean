import MapStyle.Packing.Plan
import MapStyle.Style.Property
import MapStyle.Tile.Basic
import MapStyle.Tile.Triangulation

/-!
# Meshes

The vertices and triangles of features. A feature is drawn piece by piece: a quad for
every segment of a stroke, a quad for every symbol, a triangulation for every fill.
The triangles of a piece refer to the vertices of that piece alone, and a mesh shifts
them by the number of vertices ahead of it, which it works out from the words that are there.
-/

namespace MapStyle

/-- A vertex: its place, where it moves as the shader widens strokes and symbols, and the words
of the attributes of its feature. -/
structure Vertex (N : Type) where
  position : Point N
  extrude : Point N
  attributes : List N

/-- The words of a vertex. -/
def Vertex.words {N : Type} (v : Vertex N) : List N :=
  [v.position.x, v.position.y, v.extrude.x, v.extrude.y] ++ v.attributes

/-- Vertices, and triangles between them. -/
structure Piece (N : Type) where
  vertices : List (Vertex N)
  indices : List Nat

/-- Round a place to the narrow type. -/
def Point.narrowed {W N : Type} [Precision W N] (p : Point W) : Point N := ⟨narrow p.x, narrow p.y⟩

namespace Piece

variable {W N : Type} [Scalar W] [Scalar N] [Precision W N]

/-- A quad along a segment, whose vertices move to both sides of it. There is none for a segment
whose length is zero or not finite. -/
def ofSegment? (attributes : List N) (s : Segment W) : Option (Piece N) :=
  let dx := s.finish.x - s.start.x
  let dy := s.finish.y - s.start.y
  let length := Scalar.sqrt (dx * dx + dy * dy)
  if !Scalar.isFinite length || length == Scalar.zero then none
  else
    let left : Point N := ⟨narrow (-dy / length), narrow (dx / length)⟩
    let right : Point N := ⟨-left.x, -left.y⟩
    let start := s.start.narrowed
    let finish := s.finish.narrowed
    some {
      vertices := [⟨start, left, attributes⟩, ⟨start, right, attributes⟩,
        ⟨finish, left, attributes⟩, ⟨finish, right, attributes⟩]
      indices := [0, 1, 2, 1, 3, 2] }

/-- A quad around a place, whose vertices move to its four corners. -/
def ofPlace (attributes : List N) (p : Point W) : Piece N :=
  let one : N := Scalar.one
  let corners : List (Point N) := [⟨-one, -one⟩, ⟨one, -one⟩, ⟨one, one⟩, ⟨-one, one⟩]
  { vertices := corners.map fun corner => ⟨p.narrowed, corner, attributes⟩
    indices := [0, 1, 2, 0, 2, 3] }

/-- The triangles of a triangulation, whose vertices stay in place. -/
def ofTriangulation (attributes : List N) (t : Triangulation N) : Piece N where
  vertices := t.corners.map fun corner => ⟨corner, ⟨Scalar.zero, Scalar.zero⟩, attributes⟩
  indices := t.triangles.flatMap fun triangle => [triangle.first, triangle.second, triangle.third]

end Piece

namespace Geometry

variable {W : Type} [Scalar W]

/-- The segments that a stroke follows. -/
def segments : Geometry W → List (Segment W)
  | points _ => []
  | lines parts => parts.flatMap Segment.along
  | polygon rings => rings.flatMap Segment.around

/-- The places at which symbols stand. -/
def places : Geometry W → List (Point W)
  | points places => places.filter Point.isFinite
  | lines _ | polygon _ => []

/-- The rings that a fill covers: those of at least three places, all of them finite. -/
def fillRings? : Geometry W → Option (List (List (Point W)))
  | points _ | lines _ => none
  | polygon rings => some (rings.filter fun ring => 3 ≤ ring.length ∧ ring.all Point.isFinite)

end Geometry

/-- Vertices of so many words each, and the indices of triangles between them. -/
structure Mesh (N : Type) where
  /-- The number of words of a vertex. -/
  vertexWords : Nat
  vertices : List (Vertex N)
  indices : List Nat

namespace Mesh

variable {N : Type}

def empty (vertexWords : Nat) : Mesh N := ⟨vertexWords, [], []⟩

variable (mesh : Mesh N)

/-- The words of all vertices. -/
def words : List N := mesh.vertices.flatMap Vertex.words

/-- The number of the vertex that comes next, which the words that are there tell. -/
def nextIndex : Nat := mesh.words.length / mesh.vertexWords

/-- Lay out a piece at the end of a mesh. -/
def add (piece : Piece N) : Mesh N :=
  { mesh with
    vertices := mesh.vertices ++ piece.vertices
    indices := mesh.indices ++ piece.indices.map (mesh.nextIndex + ·) }

/-- Lay out pieces at the end of a mesh, one behind the other. -/
def append (pieces : List (Piece N)) : Mesh N := pieces.foldl add mesh

end Mesh

end MapStyle
