import MapStyle.Packing.Plan
import MapStyle.Style.Property
import MapStyle.Tile.Warning
import MapStyle.Tile.Basic

/-!
# Tile buffers

What a tile comes to under a style: the words of its vertices, the indices of its
triangles, the range of indices that each program draws, and the symbols whose
contents the graphics device does not see.
-/

namespace MapStyle

/-- The indices that one program draws. -/
structure DrawRange where
  kind : ProgramKind
  first : Nat
  count : Nat
deriving DecidableEq, Repr

/-- The index after the last one of a range. -/
def DrawRange.stop (r : DrawRange) : Nat := r.first + r.count

/-- The contents of a symbol at one place. -/
structure SymbolPlacement (W : Type) where
  /-- The position of the feature in the tile. -/
  feature : Nat
  id : Option UInt64
  position : Point W
  icon : Option String
  text : Option String

/-- The buffers of one tile under one style. -/
structure TileBuffers (W N : Type) where
  tile : TileId
  style : UInt64
  generation : UInt64
  /-- The words of all vertices. -/
  vertices : List N
  indices : List Nat
  layout : VertexLayout
  /-- The ranges of the programs, in their order. -/
  drawRanges : List DrawRange
  symbols : List (SymbolPlacement W)
  /-- The number of features that were drawn. -/
  featureCount : Nat
  warnings : List (TileWarning W)

namespace TileBuffers

variable {W N : Type}

def vertexBytes (b : TileBuffers W N) : Nat := wordBytes * b.vertices.length

def indexBytes (b : TileBuffers W N) : Nat := wordBytes * b.indices.length

/-- The bytes that the buffers take on the graphics device. -/
def byteSize (b : TileBuffers W N) : Nat := b.vertexBytes + b.indexBytes

/-- The words of one vertex. -/
def vertexWords (b : TileBuffers W N) : Nat := b.layout.strideBytes / wordBytes

def vertexCount (b : TileBuffers W N) : Nat := b.vertices.length / b.vertexWords

/-- The words of each vertex. -/
def rows (b : TileBuffers W N) : List (List N) :=
  let words := b.vertices.toArray
  (List.range b.vertexCount).map fun i =>
    (words.extract (i * b.vertexWords) ((i + 1) * b.vertexWords)).toList

/-- The indices of a range, in the order in which they are drawn. -/
def drawn (b : TileBuffers W N) (r : DrawRange) : List Nat := (b.indices.drop r.first).take r.count

def isEmpty (b : TileBuffers W N) : Bool := b.indices.isEmpty

/-- The range that a program draws. -/
def drawRange? (b : TileBuffers W N) (kind : ProgramKind) : Option DrawRange :=
  b.drawRanges.find? (·.kind = kind)

end TileBuffers

end MapStyle
