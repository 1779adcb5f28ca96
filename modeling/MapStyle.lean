import MapStyle.Main
import MapStyle.Proofs.Cache.Removal
import MapStyle.Proofs.Cache.Transparency
import MapStyle.Proofs.Expr.Soundness
import MapStyle.Proofs.Style.Parity
import MapStyle.Proofs.Style.Conflict
import MapStyle.Tile.DeviceError
import MapStyle.Proofs.Cache.Agreement
import MapStyle.Proofs.Cache.Abandonment
import MapStyle.Proofs.Cache.Attachment
import MapStyle.Proofs.Shader.Statements
import MapStyle.Proofs.Style.Typing
import MapStyle.Proofs.Tile.Buffers
import MapStyle.Proofs.Tile.Degeneracy
import MapStyle.Proofs.Tile.DrawOrder
import MapStyle.Proofs.Packing.Layout
import MapStyle.Proofs.Style.Independence
import MapStyle.Proofs.Cache.Handles
import MapStyle.Proofs.Style.Equality
import MapStyle.Proofs.Cache.Isolation
import MapStyle.Proofs.Cache.Trimming
import MapStyle.Proofs.Expr.Derived
import MapStyle.Proofs.Expr.Hints
import MapStyle.Proofs.Packing.Decoding
import MapStyle.Proofs.Packing.Words
import MapStyle.Proofs.Style.Redeclaration
import MapStyle.Proofs.Style.Sources
import MapStyle.Proofs.Style.Overrides
import MapStyle.Proofs.Color.Functional
import MapStyle.Proofs.Color.Hexadecimal
import MapStyle.Proofs.Color.Notation
import MapStyle.Proofs.Style.Defaults
import MapStyle.Proofs.Tile.Rings
import MapStyle.Proofs.Text.Bytes
import MapStyle.Proofs.Style.Diagnosis
import MapStyle.Proofs.Cache.Sharing
import MapStyle.Proofs.Style.Readability
import MapStyle.Proofs.Packing.Naming
import MapStyle.Proofs.Uniform.Stability
