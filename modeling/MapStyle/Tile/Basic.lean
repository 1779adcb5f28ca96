import MapStyle.Dictionary
import MapStyle.Tile.Geometry
import MapStyle.Value

/-!
# Tiles

A tile is a square of a zoomable map with the features that lie in it, in the order
in which its source lists them.
-/

namespace MapStyle

/-- The address of a tile: a zoom level, and a column and a row at that level. -/
structure TileId where
  z : UInt8
  x : UInt32
  y : UInt32
deriving DecidableEq, Repr

/-- The text that shows an address. -/
def TileId.text (id : TileId) : String := s!"{id.z}/{id.x}/{id.y}"

/-- A feature of a map. -/
structure Feature (W N : Type) where
  /-- A number that stays with the feature in all tiles and versions. -/
  id : Option UInt64
  geometry : Geometry W
  properties : Dictionary (Value W N)

/-- A tile whose features have been decoded. -/
structure Tile (W N : Type) where
  id : TileId
  /-- The version of the data. -/
  generation : UInt64
  features : List (Feature W N)

end MapStyle
