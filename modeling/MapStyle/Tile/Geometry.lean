import MapStyle.Number.Scalar

/-!
# Geometry of features

Points, line strings and the rings of a polygon, each with any number of parts. A
geometry is degenerate when nothing can be drawn of it: no point at a finite place,
no two consecutive places that differ, no ring with an area.
-/

namespace MapStyle

/-- A place in the plane. -/
structure Point (W : Type) where
  x : W
  y : W
deriving Repr

/-- The geometry of a feature. -/
inductive Geometry (W : Type) where
  | points (places : List (Point W))
  | lines (parts : List (List (Point W)))
  /-- The rings of one polygon; what an odd number of rings surrounds is inside. -/
  | polygon (rings : List (List (Point W)))
deriving Repr

/-- A straight piece of a line or of the edge of a ring. -/
structure Segment (W : Type) where
  start : Point W
  finish : Point W
deriving Repr

namespace Point

variable {W : Type} [Scalar W]

instance : BEq (Point W) := ⟨fun a b => a.x == b.x && a.y == b.y⟩

def isFinite (p : Point W) : Bool := Scalar.isFinite p.x && Scalar.isFinite p.y

end Point

namespace Segment

variable {W : Type}

/-- The segments between consecutive places. -/
def along : List (Point W) → List (Segment W)
  | a :: b :: rest => ⟨a, b⟩ :: along (b :: rest)
  | _ => []

variable [Scalar W]

/-- The segment from the last place of a ring to its first, unless they are one place. -/
def closing? (ring : List (Point W)) : Option (Segment W) :=
  match ring.head?, ring.getLast? with
  | some first, some last => if first == last then none else some ⟨last, first⟩
  | _, _ => none

/-- The segments around a ring. -/
def around (ring : List (Point W)) : List (Segment W) := along ring ++ (closing? ring).toList

/-- Whether a segment joins two finite places that differ. -/
def isProper (s : Segment W) : Bool :=
  s.start.isFinite && s.finish.isFinite && s.start != s.finish

end Segment

namespace Geometry

variable {W : Type}

def kind : Geometry W → String
  | points _ => "point"
  | lines _ => "line"
  | polygon _ => "polygon"

variable [Scalar W]

/-- The pairs of consecutive places of a ring, the last one with the first. -/
def cyclicPairs (ring : List (Point W)) : List (Point W × Point W) :=
  ring.zip (ring.drop 1 ++ ring.take 1)

/-- The area of a ring, positive when it runs counterclockwise. -/
def ringArea (ring : List (Point W)) : W :=
  if ring.length < 3 then Scalar.zero
  else
    let twice := (cyclicPairs ring).foldl
      (fun twice (a, b) => twice + (a.x * b.y - b.x * a.y)) Scalar.zero
    twice * Scalar.half

/-- The greatest area that counts as none: the step from one to the next machine number. -/
def areaLimit : W := Scalar.one / Scalar.ofNat (Nat.pow 2 52)

/-- Whether nothing can be drawn of a geometry. -/
def isDegenerate : Geometry W → Bool
  | points places => !places.any Point.isFinite
  | lines parts => !parts.any fun part => (Segment.along part).any Segment.isProper
  | polygon rings => !rings.any fun ring => Scalar.lt areaLimit (Scalar.abs (ringArea ring))

end Geometry

end MapStyle
