import MapStyle.Number.Machine
import MapStyle.Tile.Geometry

/-!
# Triangulations of rings

The inside of some rings, cut into triangles. The corners are exactly the places of
the rings and those where edges cross: as many diagonals are drawn between them as fit
inside the rings without crossing an edge or one another, and the triangles are what
lies between edges and diagonals. All tests are exact, on whole multiples of the least
machine number; only the place of a crossing is rounded.
-/

namespace MapStyle

/-- A triangle, by the positions of its corners in a list of places. -/
structure Triangle where
  first : Nat
  second : Nat
  third : Nat
deriving DecidableEq, Repr

/-- Places and triangles between them. -/
structure Triangulation (N : Type) where
  corners : List (Point N)
  triangles : List Triangle
deriving Repr

namespace Triangulation

def empty {N : Type} : Triangulation N := ⟨[], []⟩

/-- Whether all corners of all triangles are among the places. -/
def IsClosed {N : Type} (t : Triangulation N) : Prop :=
  ∀ triangle ∈ t.triangles, triangle.first < t.corners.length ∧
    triangle.second < t.corners.length ∧ triangle.third < t.corners.length

end Triangulation

/-- A place with whole coordinates. -/
structure GridPoint where
  x : Int
  y : Int
deriving DecidableEq, Repr

namespace GridPoint

/-- Twice the area of a triangle, positive when its corners run counterclockwise. -/
def twiceArea (a b c : GridPoint) : Int := (b.x - a.x) * (c.y - a.y) - (b.y - a.y) * (c.x - a.x)

/-- The side of a line on which a place lies: positive on the left, zero on the line. -/
def side (a b p : GridPoint) : Int := (twiceArea a b p).sign

/-- Whether a place lies on a segment between its ends. -/
def isBetween (a b p : GridPoint) : Bool :=
  twiceArea a b p == 0 && (a.x - p.x) * (b.x - p.x) + (a.y - p.y) * (b.y - p.y) < 0

/-- Whether the boxes around two segments overlap. Segments of which they do not never cross. -/
def isNear (a b c d : GridPoint) : Bool :=
  min a.x b.x < max c.x d.x && min c.x d.x < max a.x b.x &&
    min a.y b.y < max c.y d.y && min c.y d.y < max a.y b.y

/-- Whether two segments cross at a place inside both. -/
def crosses (a b c d : GridPoint) : Bool :=
  isNear a b c d && side a b c * side a b d < 0 && side c d a * side c d b < 0

/-- Whether a place lies in a triangle or on its edge. -/
def isCovered (a b c p : GridPoint) : Bool :=
  let sides := [side a b p, side b c p, side c a p]
  sides.all (0 ≤ ·) || sides.all (· ≤ 0)

/-- A part of the sum of places. -/
def share (points : List GridPoint) : GridPoint :=
  let total (axis : GridPoint → Int) : Int := points.foldl (fun sum p => sum + axis p) 0
  ⟨total GridPoint.x / points.length, total GridPoint.y / points.length⟩

end GridPoint

/-- A straight line between two places, in either direction. -/
abbrev GridEdge := GridPoint × GridPoint

namespace GridEdge

/-- Whether a ray from a place to the right meets an edge. -/
def isRightOf (p : GridPoint) (edge : GridEdge) : Bool :=
  let (a, b) := edge
  if a.y ≤ p.y && p.y < b.y then GridPoint.side a b p > 0
  else if b.y ≤ p.y && p.y < a.y then GridPoint.side a b p < 0
  else false

/-- Whether an odd number of rings surrounds a place. -/
def surround (edges : List GridEdge) (p : GridPoint) : Bool :=
  (edges.countP (isRightOf p)) % 2 == 1

/-- Whether two edges have the same ends. -/
def same (edge other : GridEdge) : Bool := edge == other || edge == (other.2, other.1)

/-- Whether some edge joins two places. -/
def join (edges : List GridEdge) (p q : GridPoint) : Bool := edges.any (same (p, q))

/-- The places that edges join with a place. -/
def neighbours (edges : List GridEdge) (p : GridPoint) : List GridPoint :=
  edges.filterMap fun (a, b) => if a = p then some b else if b = p then some a else none

/-- The edges that stand an odd number of times, once each. The others bound nothing. -/
def odd (edges : List GridEdge) : List GridEdge :=
  (edges.filter fun edge => edges.countP (same edge) % 2 == 1).eraseDupsBy same

/-- How far along an edge a place lies. -/
def progress (edge : GridEdge) (p : GridPoint) : Int :=
  let (a, b) := edge
  (p.x - a.x) * (b.x - a.x) + (p.y - a.y) * (b.y - a.y)

/-- Cut an edge at some places. -/
def cutAt (edge : GridEdge) (places : List GridPoint) : List GridEdge :=
  let inner := places.eraseDups.mergeSort fun p q => progress edge p ≤ progress edge q
  let stops := edge.1 :: inner ++ [edge.2]
  (stops.zip (stops.drop 1)).filter fun (p, q) => p != q

end GridEdge

namespace Triangulation

/-- Every item of a list with every later one. -/
def pairs {α : Type} : List α → List (α × α)
  | [] => []
  | item :: rest => rest.map (item, ·) ++ pairs rest

/-- Every two of some places that an edge joins. -/
def joinedPairs (edges : List GridEdge) : List GridPoint → List (GridPoint × GridPoint)
  | [] => []
  | p :: rest =>
    let near := GridEdge.neighbours edges p
    (rest.filter near.contains).map (p, ·) ++ joinedPairs edges rest

/-- Every three of some places that edges join with one another. -/
def cycles (edges : List GridEdge) : List GridPoint → List (GridPoint × GridPoint × GridPoint)
  | [] => []
  | p :: rest =>
    let near := GridEdge.neighbours edges p
    (joinedPairs edges (rest.filter near.contains)).map (p, ·) ++ cycles edges rest

/-- The edges of a ring between places that differ. -/
def ringEdges (ring : List GridPoint) : List GridEdge :=
  (ring.zip (ring.drop 1 ++ ring.take 1)).filter fun (a, b) => a != b

/-- Whether a diagonal between two places fits into what is drawn. -/
def fits (points : List GridPoint) (edges drawn : List GridEdge) (p q : GridPoint) : Bool :=
  !drawn.any (fun (a, b) => GridPoint.crosses p q a b) &&
    GridEdge.surround edges (GridPoint.share [p, q]) &&
    !points.any (GridPoint.isBetween p q) && !GridEdge.join drawn p q

/-- The edges and as many diagonals as fit. -/
def drawDiagonals (points : List GridPoint) (edges : List GridEdge) : List GridEdge :=
  (pairs points).foldl
    (fun drawn (p, q) => if fits points edges drawn p q then (p, q) :: drawn else drawn) edges

/-- Whether three joined places bound a triangle of the inside that holds no other place. -/
def isFace (points : List GridPoint) (edges : List GridEdge) (p q r : GridPoint) : Bool :=
  GridPoint.twiceArea p q r != 0 && GridEdge.surround edges (GridPoint.share [p, q, r]) &&
    !points.any fun other =>
      other != p && other != q && other != r && GridPoint.isCovered p q r other

/-- The triangles between some places inside some edges. The places are multiples of six, so that
the middle of two of them and of three is a place of the grid, and no two edges meet but at them. -/
def gridTriangles (points : List GridPoint) (edges : List GridEdge) :
    List (GridPoint × GridPoint × GridPoint) :=
  (cycles (drawDiagonals points edges) points).filter
    fun (p, q, r) => isFace points edges p q r

/-! ## Places of the machine -/

/-- A finite number as a multiple of the least one of its format. -/
def units? {f : Format} (x : Binary f) : Option Int :=
  match x.unpack with
  | .finite negative significand exponent =>
    some (Binary.integer negative (significand * Nat.pow 2 (exponent - f.unitExponent).toNat))
  | _ => none

/-- The place of the grid for a place. -/
def gridPoint? {f : Format} (p : Point (Binary f)) : Option GridPoint := do
  return ⟨← units? p.x, ← units? p.y⟩

/-- The machine number nearest to a fraction of the least one of its format. -/
def ofUnits {f : Format} (numerator denominator : Int) : Binary f :=
  let negative := (numerator < 0) != (denominator < 0)
  let (n, d) := Format.scaled numerator.natAbs denominator.natAbs f.unitExponent
  Binary.ofRatio negative n d

/-- The place where two edges cross, if they do, and its place of the grid. -/
def crossing? {f : Format} (edge other : GridEdge) : Option (Point (Binary f) × GridPoint) :=
  let ((a, b), (c, d)) := (edge, other)
  if GridPoint.crosses a b c d then do
    let whole := (b.x - a.x) * (d.y - c.y) - (b.y - a.y) * (d.x - c.x)
    let part := (c.x - a.x) * (d.y - c.y) - (c.y - a.y) * (d.x - c.x)
    let place : Point (Binary f) :=
      ⟨ofUnits (a.x * whole + part * (b.x - a.x)) whole,
        ofUnits (a.y * whole + part * (b.y - a.y)) whole⟩
    return (place, ← gridPoint? place)
  else none

/-- Whether the places of a ring differ at all. -/
def isSpread (ring : List GridPoint) : Bool := ring.any fun p => ring.head? != some p

/-- Divide a place by what divides all of some places, and make it a multiple of six. -/
def reduce (points : List GridPoint) : GridPoint → GridPoint :=
  let divisor := points.foldl (fun d p => Nat.gcd (Nat.gcd d p.x.natAbs) p.y.natAbs) 0
  fun p => ⟨p.x / divisor * 6, p.y / divisor * 6⟩

/-- The triangles of the inside of some rings, and their corners, also those of rings that have no
inside. A ring that is a single place counts for nothing, and nothing is drawn when a place is not
finite. -/
def ofRings {f : Format} (rings : List (List (Point (Binary f)))) :
    Triangulation (Binary f) :=
  match rings.mapM (·.mapM gridPoint?) with
  | none => empty
  | some grid =>
    let spread := (rings.zip grid).filter fun (_, places) => isSpread places
    let edges := spread.flatMap fun (_, places) => ringEdges places
    let places := spread.flatMap fun (ring, places) => ring.zip places
    let crossings := (pairs edges).filterMap fun (edge, other) => crossing? edge other
    let corners : List (Point (Binary f) × GridPoint) :=
      (places ++ crossings).eraseDupsBy fun a b => a.2 == b.2
    let cuts (edge : GridEdge) : List GridPoint :=
      (places.map Prod.snd).filter (GridPoint.isBetween edge.1 edge.2) ++
        edges.filterMap fun other => (crossing? (f := f) edge other).map Prod.snd
    let pieces := GridEdge.odd (edges.flatMap fun edge => edge.cutAt (cuts edge))
    let reduced := reduce (corners.map Prod.snd)
    let points := corners.map fun corner => reduced corner.2
    { corners := corners.map Prod.fst
      triangles :=
        (gridTriangles points (pieces.map fun (a, b) => (reduced a, reduced b))).map
          fun (p, q, r) => ⟨points.idxOf p, points.idxOf q, points.idxOf r⟩ }

/-- Twice the area that some triangles cover, rounded once. -/
def twiceArea {f : Format}
    (triangles : List (Point (Binary f) × Point (Binary f) × Point (Binary f))) : Double :=
  let areas := triangles.filterMap fun (p, q, r) => do
    return (GridPoint.twiceArea (← gridPoint? p) (← gridPoint? q) (← gridPoint? r)).natAbs
  Binary.ofScaled false (areas.foldr (· + ·) 0) (2 * f.unitExponent)

end Triangulation

end MapStyle
