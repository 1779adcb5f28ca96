import MapStyle.Digest
import MapStyle.Style.Property
import MapStyle.Tile.Basic

/-!
# Device errors

Why a tile cannot be drawn on a graphics device.
-/

namespace MapStyle

/-- Why a tile cannot be drawn on a graphics device. -/
inductive DeviceError where
  /-- A style draws no geometry of a kind. -/
  | missingProgram (style : UInt64) (kind : ProgramKind)
  | emptyTile (tile : TileId)
  /-- The device has no room for a buffer of a tile. -/
  | bufferTooLarge (what : String) (size limit : Nat)
deriving DecidableEq, Repr

namespace DeviceError

def message : DeviceError → String
  | missingProgram style kind =>
    s!"style {Digest.text style} has no {kind.name} program"
  | emptyTile tile => s!"tile {tile.text} has no geometry to upload"
  | bufferTooLarge what size limit =>
    s!"{what} buffer of {size} bytes exceeds the device limit of {limit} bytes"

end DeviceError

end MapStyle
