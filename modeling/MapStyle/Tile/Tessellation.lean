import MapStyle.Style.Compiled
import MapStyle.Tile.Buffers
import MapStyle.Tile.Mesh

/-!
# Tessellation

Building the buffers of a tile. Features that the filter rejects or of which nothing
can be drawn are left out; the attribute words of the others are computed once, and
they are drawn in the order of their depth, then of their numbers, then of their
positions, so that features with numbers are drawn alike in whatever order the tile
lists them. All fills come first, then all strokes, then all symbols.
-/

namespace MapStyle

/-- A feature that is drawn. -/
structure Prepared (W N : Type) where
  /-- The position of the feature in the tile. -/
  index : Nat
  feature : Feature W N
  zIndex : W
  /-- The words of its attributes. -/
  words : List N
  icon : Option String
  text : Option String

namespace Prepared

variable {W N : Type} [Scalar W]

/-- The number by which features of one depth are ordered; those without one come last. -/
def drawNumber (p : Prepared W N) : Nat := (p.feature.id.map UInt64.toNat).getD (UInt64.size - 1)

/-- Whether a feature is drawn before another one. -/
def precedes (a b : Prepared W N) : Bool :=
  if Scalar.precedes a.zIndex b.zIndex then true
  else if Scalar.precedes b.zIndex a.zIndex then false
  else if a.drawNumber = b.drawNumber then a.index < b.index
  else a.drawNumber < b.drawNumber

/-- Features in the order in which they are drawn. -/
def sorted (features : List (Prepared W N)) : List (Prepared W N) :=
  features.mergeSort fun a b => !b.precedes a

end Prepared

/-- A result with the warnings on the way to it. -/
abbrev Warned (W α : Type) := α × List (TileWarning W)

namespace CompiledStyle

variable {W N : Type} [Scalar W] [Scalar N] [Precision W N]

/-- The value of a property for a feature, which is its default when the evaluation fails. -/
def evaluateOrDefault (style : CompiledStyle W N) (c : Context W N) (index : Nat)
    (property : StyleProperty) : Warned W (Value W N) :=
  match style.evaluate property c with
  | .ok value => (value, [])
  | .error e => (property.default, [.ofError index property.name e])

/-- The value of an attribute for a feature for which it has none. -/
def attributeDefault (a : Attribute W N) : Value W N :=
  match a.source with
  | .property _ => Value.zeroOf a.type
  | .evaluated property _ => property.default

/-- The words of an attribute for a feature. -/
def attributeWords (c : Context W N) (index : Nat) (a : Attribute W N) : Warned W (List N) :=
  let (value, failures) : Warned W (Value W N) :=
    match attributeValue c a with
    | .ok value => (value, [])
    | .error e => (attributeDefault a, [.ofError index a.name e])
  let (words, issue) := a.pack value
  (words, failures ++ (issue.map (.outOfRange index a.name)).toList)

/-- The words of all attributes for a feature. -/
def featureWords (style : CompiledStyle W N) (c : Context W N) (index : Nat) :
    Warned W (List N) :=
  let parts := style.plan.attributes.map (attributeWords c index)
  (parts.flatMap Prod.fst, parts.flatMap Prod.snd)

/-- Whether a style says what symbols contain. -/
def hasSymbols (style : CompiledStyle W N) : Bool :=
  (style.property? .iconSource).isSome || (style.property? .textField).isSome

/-- What a symbol contains, if anything. -/
def symbolContent (value : Value W N) : Option String := value.asString?.filter (· ≠ "")

/-- What the symbols of a feature contain. -/
def symbolContents (style : CompiledStyle W N) (c : Context W N) (index : Nat)
    (geometry : Geometry W) : Warned W (Option String × Option String) :=
  match style.hasSymbols, geometry with
  | true, .points _ =>
    let (icon, iconWarnings) := style.evaluateOrDefault c index .iconSource
    let (text, textWarnings) := style.evaluateOrDefault c index .textField
    ((symbolContent icon, symbolContent text), iconWarnings ++ textWarnings)
  | _, _ => ((none, none), [])

/-- Prepare a feature that passed the filter and of which something can be drawn. -/
def prepareDrawn (style : CompiledStyle W N) (c : Context W N) (index : Nat)
    (feature : Feature W N) : Warned W (Prepared W N) :=
  let (zIndex, zWarnings) := style.evaluateOrDefault c index .zIndex
  let (words, wordWarnings) := style.featureWords c index
  let ((icon, text), symbolWarnings) := style.symbolContents c index feature.geometry
  ({ index, feature, zIndex := zIndex.asNumber?.getD Scalar.zero, words, icon, text },
    zWarnings ++ wordWarnings ++ symbolWarnings)

/-- Prepare a feature, unless it is left out. -/
def prepare (style : CompiledStyle W N) (zoom : W) (index : Nat) (feature : Feature W N) :
    Warned W (Option (Prepared W N)) :=
  let c := style.buildContext feature.properties.get? zoom
  match style.passesFilter c with
  | .error e => (none, [.ofError index StyleProperty.filter.name e])
  | .ok false => (none, [])
  | .ok true =>
    if feature.geometry.isDegenerate then
      (none, [.degenerateGeometry index feature.geometry.kind])
    else
      let (prepared, warnings) := style.prepareDrawn c index feature
      (some prepared, warnings)

/-- Prepare the features of a tile, in the order in which they are drawn. -/
def prepareAll (style : CompiledStyle W N) (tile : Tile W N) :
    Warned W (List (Prepared W N)) :=
  let zoom : W := Scalar.ofNat tile.id.z.toNat
  let results := tile.features.zipIdx.map fun (feature, index) => style.prepare zoom index feature
  (Prepared.sorted (results.filterMap Prod.fst), results.flatMap Prod.snd)

end CompiledStyle

/-- How fills are cut into triangles. -/
structure Tessellator (N : Type) where
  /-- The greatest distance between a curve and the edges drawn in its place. No fill is drawn
  unless it is positive. -/
  tolerance : N
  /-- The triangles of the inside of some rings. -/
  triangulate : List (List (Point N)) → Triangulation N

namespace Tessellator

variable {W N : Type} [Scalar W] [Scalar N] [Precision W N]

/-- The pieces of a feature that a program draws. -/
def pieces (t : Tessellator N) (kind : ProgramKind) (p : Prepared W N) : List (Piece N) :=
  let geometry := p.feature.geometry
  match kind with
  | .fill =>
    if Scalar.lt Scalar.zero t.tolerance then
      geometry.fillRings?.toList.map fun rings =>
        .ofTriangulation p.words (t.triangulate (rings.map (·.map Point.narrowed)))
    else []
  | .stroke => geometry.segments.filterMap (Piece.ofSegment? p.words)
  | .symbol => geometry.places.map (Piece.ofPlace p.words)

/-- Draw features with one program, at the end of what is drawn. A program that draws nothing
has no range. -/
def drawKind (t : Tessellator N) (features : List (Prepared W N))
    (drawn : Mesh N × List DrawRange) (kind : ProgramKind) : Mesh N × List DrawRange :=
  let (mesh, ranges) := drawn
  let next := mesh.append (features.flatMap (t.pieces kind))
  let count := next.indices.length - mesh.indices.length
  (next, if count = 0 then ranges else ranges ++ [⟨kind, mesh.indices.length, count⟩])

/-- Draw features with all programs of a style. -/
def draw (t : Tessellator N) (style : CompiledStyle W N) (features : List (Prepared W N)) :
    Mesh N × List DrawRange :=
  (ProgramKind.all.filter style.hasProgram).foldl (t.drawKind features)
    (Mesh.empty style.plan.vertexWords, [])

/-- The symbols of a feature. -/
def symbolsOf (p : Prepared W N) : List (SymbolPlacement W) :=
  if p.icon.isNone && p.text.isNone then []
  else p.feature.geometry.places.map fun position =>
    { feature := p.index, id := p.feature.id, position, icon := p.icon, text := p.text }

/-- Build the buffers of a tile. -/
def build (t : Tessellator N) (style : CompiledStyle W N) (tile : Tile W N) : TileBuffers W N :=
  let (features, warnings) := style.prepareAll tile
  let (mesh, drawRanges) := t.draw style features
  { tile := tile.id
    style := style.hash
    generation := tile.generation
    vertices := mesh.words
    indices := mesh.indices
    layout := style.plan.vertexLayout
    drawRanges
    symbols := features.flatMap symbolsOf
    featureCount := features.length
    warnings }

end Tessellator

/-- Fills of machine numbers, cut along diagonals of their rings. -/
def Tessellator.exact (tolerance : Single) : Tessellator Single :=
  ⟨tolerance, Triangulation.ofRings⟩

end MapStyle
