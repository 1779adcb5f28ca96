import Mathlib
import MapStyle.Proofs.Expr.Interpolation
import MapStyle.Proofs.Tile.Buffers

/-!
# Rings that are closed explicitly

A ring runs back to its first place whether that place is written again at its end or not. What a
stroke draws of a ring, and its area, depend on the pairs of consecutive places around it, and
writing the first place again adds the pair of that place with itself, which has neither a length
nor an area. Along every other pair a stroke draws one quad (`Segment.IsQuad`), and `Outlined` says
what that makes of a mesh. Numbers are exact here, and `Elementary.Roots` says what a root is.
-/

namespace MapStyle

/-! ## Around a ring -/

section

variable {W : Type}

namespace Geometry

/-- A ring as it is, or with its first place written again at the end. -/
inductive ClosesRing : List (Point W) → List (Point W) → Prop where
  | kept (ring : List (Point W)) : ClosesRing ring ring
  | closed (first : Point W) (rest : List (Point W)) :
    ClosesRing (first :: rest) (first :: rest ++ [first])

theorem cyclicPairs_cons (first : Point W) (rest : List (Point W)) :
    cyclicPairs (first :: rest) = (first :: rest).zip (rest ++ [first]) := rfl

/-- A ring that is closed explicitly has one pair more, of its first place with itself. -/
theorem cyclicPairs_closed (first : Point W) (rest : List (Point W)) :
    cyclicPairs (first :: rest ++ [first]) = cyclicPairs (first :: rest) ++ [(first, first)] := by
  rw [List.cons_append, cyclicPairs_cons, cyclicPairs_cons, ← List.cons_append,
    List.zip_append (by simp)]
  rfl

theorem length_cyclicPairs (ring : List (Point W)) : (cyclicPairs ring).length = ring.length := by
  cases ring with
  | nil => rfl
  | cons first rest => simp [cyclicPairs_cons]

/-- The place after the last one is the first one. -/
theorem getElem?_cyclicPairs {ring : List (Point W)} {i : Nat} (inside : i < ring.length)
    (around : (i + 1) % ring.length < ring.length) :
    (cyclicPairs ring)[i]? = some (ring[i], ring[(i + 1) % ring.length]) := by
  cases ring with
  | nil => nomatch inside
  | cons first rest =>
    rw [cyclicPairs_cons, List.getElem?_zip_eq_some]
    refine ⟨List.getElem?_eq_getElem inside, ?_⟩
    rw [List.length_cons, Nat.lt_succ_iff_lt_or_eq] at inside
    rcases inside with before | rfl
    · have next : (i + 1) % (first :: rest).length = i + 1 :=
        Nat.mod_eq_of_lt (Nat.succ_lt_succ before)
      simp only [next, List.getElem?_append_left before, List.getElem_cons_succ,
        List.getElem?_eq_getElem before]
    · simp

end Geometry

namespace Segment

/-- The segment from a position of a ring to the next position, the first one coming after the
last. -/
def from? (ring : List (Point W)) (i : Nat) : Option (Segment W) := do
  return ⟨← ring[i]?, ← ring[(i + 1) % ring.length]?⟩

/-- All segments from a position of a ring to the next. -/
def circuit (ring : List (Point W)) : List (Segment W) :=
  (Geometry.cyclicPairs ring).map fun (a, b) => ⟨a, b⟩

/-- The segments along a line and back to some place. -/
theorem map_zip_eq_along (first last : Point W) (rest : List (Point W)) :
    (((first :: rest).zip (rest ++ [last])).map fun (a, b) => ⟨a, b⟩) =
      along (first :: rest) ++ [⟨(first :: rest).getLast (List.cons_ne_nil _ _), last⟩] := by
  induction rest generalizing first with
  | nil => rfl
  | cons next rest ih =>
    rw [List.cons_append, List.zip_cons_cons, List.map_cons, ih, along, List.cons_append,
      List.getLast_cons (List.cons_ne_nil _ _)]

theorem map_some_circuit (ring : List (Point W)) :
    (circuit ring).map some = (List.range ring.length).map (from? ring) := by
  refine List.ext_getElem? fun i => ?_
  by_cases inside : i < ring.length
  · have next : (i + 1) % ring.length < ring.length := Nat.mod_lt _ (Nat.zero_lt_of_lt inside)
    simp [circuit, from?, Geometry.getElem?_cyclicPairs inside next, inside, next]
  · simp [circuit, Geometry.length_cyclicPairs, inside]

end Segment

end

namespace Segment

variable {W : Type} [Scalar W]

/-- Whether a segment leaves the place at which it starts. -/
def moves (s : Segment W) : Bool := s.start != s.finish

/-- The positions of a ring whose next place is another one. -/
def turns (ring : List (Point W)) : List Nat :=
  (List.range ring.length).filter fun i => (from? ring i).any moves

/-- The segments around a ring that move. -/
def edges (ring : List (Point W)) : List (Segment W) := (circuit ring).filter moves

/-- The edges of a ring are, in order, the segments at its turns. -/
theorem map_from?_turns (ring : List (Point W)) :
    (turns ring).map (from? ring) = (edges ring).map some := by
  calc (turns ring).map (from? ring)
      = ((List.range ring.length).map (from? ring)).filter (Option.any moves) := by
        rw [List.filter_map]
        rfl
    _ = ((circuit ring).map some).filter (Option.any moves) := by rw [map_some_circuit]
    _ = (edges ring).map some := by
        rw [List.filter_map]
        rfl

theorem map_some_flatMap_edges (rings : List (List (Point W))) :
    (rings.flatMap edges).map some = rings.flatMap fun ring => (turns ring).map (from? ring) := by
  simp only [List.map_flatMap, map_from?_turns]

theorem length_edges (ring : List (Point W)) : (edges ring).length = (turns ring).length := by
  rw [← List.length_map (f := some), ← map_from?_turns, List.length_map]

/-- The number of turns of some rings. -/
def turnCount (rings : List (List (Point W))) : Nat :=
  (rings.map fun ring => (turns ring).length).sum

theorem length_flatMap_edges (rings : List (List (Point W))) :
    (rings.flatMap edges).length = turnCount rings := by
  rw [List.length_flatMap, turnCount]
  simp only [length_edges]

end Segment

/-! ## Exact numbers -/

/-- A number that is not negative has one root that is not negative either, which is the one that
is worked out. -/
class Elementary.Roots (K : Type) [Field K] [LinearOrder K] [Elementary K] : Prop where
  sqrt_nonneg {x : K} : 0 ≤ x → 0 ≤ sqrt x
  sqrt_mul_sqrt {x : K} : 0 ≤ x → sqrt x * sqrt x = x

section

variable {K : Type} [Field K] [LinearOrder K]

namespace Segment

/-- The square of the length of a segment. -/
def squaredSpan (s : Segment K) : K :=
  (s.finish.x - s.start.x) * (s.finish.x - s.start.x) +
    (s.finish.y - s.start.y) * (s.finish.y - s.start.y)

theorem squaredSpan_nonneg [IsStrictOrderedRing K] (s : Segment K) : 0 ≤ s.squaredSpan :=
  add_nonneg (mul_self_nonneg _) (mul_self_nonneg _)

/-- The unit that stands upright on a segment, to its left. -/
structure IsNormal (s : Segment K) (n : Point K) : Prop where
  upright : n.x * (s.finish.x - s.start.x) + n.y * (s.finish.y - s.start.y) = 0
  unit : n.x * n.x + n.y * n.y = 1
  left : 0 < (s.finish.x - s.start.x) * n.y - (s.finish.y - s.start.y) * n.x

/-- What a segment goes, turned by a quarter and divided by its length. -/
theorem isNormal_of_length [IsStrictOrderedRing K] {s : Segment K} {length : K}
    (pos : 0 < length) (square : length * length = s.squaredSpan) :
    s.IsNormal ⟨-(s.finish.y - s.start.y) / length, (s.finish.x - s.start.x) / length⟩ := by
  have nonzero : length ≠ 0 := pos.ne'
  rw [squaredSpan] at square
  have across : (s.finish.x - s.start.x) * ((s.finish.x - s.start.x) / length) -
      (s.finish.y - s.start.y) * (-(s.finish.y - s.start.y) / length) = length := by
    field_simp
    linear_combination -square
  exact {
    upright := by
      show _ * (s.finish.x - s.start.x) + _ * (s.finish.y - s.start.y) = 0
      field_simp
      ring
    unit := by
      field_simp
      linear_combination -square
    left := pos.trans_eq across.symm }

/-- The corners of a quad along a segment: either end twice, to move to its left and to its
right. -/
def IsQuad (words : List K) (s : Segment K) (corners : List (Vertex K)) : Prop :=
  ∃ left right : Point K, s.IsNormal left ∧ right = ⟨-left.x, -left.y⟩ ∧
    corners = [⟨s.start, left, words⟩, ⟨s.start, right, words⟩, ⟨s.finish, left, words⟩,
      ⟨s.finish, right, words⟩]

end Segment

end

variable {K : Type} [Field K] [LinearOrder K] [FloorRing K] [Elementary K]

instance : LawfulBEq (Point K) where
  eq_of_beq {a b} same := by
    obtain ⟨sameX, sameY⟩ := Bool.and_eq_true_iff.1 same
    cases a
    cases b
    cases eq_of_beq sameX
    cases eq_of_beq sameY
    rfl
  rfl := Bool.and_eq_true_iff.2 ⟨beq_self_eq_true _, beq_self_eq_true _⟩

namespace Segment

theorem moves_iff {s : Segment K} : s.moves = true ↔ s.start ≠ s.finish := bne_iff_ne

/-- Whether the way back to the first place is a segment of its own or has no length, the segments
that move are the same. -/
theorem filter_around (ring : List (Point K)) : (around ring).filter moves = edges ring := by
  cases ring with
  | nil => rfl
  | cons first rest =>
    rw [edges, circuit, Geometry.cyclicPairs_cons, map_zip_eq_along, around, List.filter_append,
      List.filter_append]
    congr 1
    rw [closing?, List.head?_cons, List.getLast?_eq_some_getLast (List.cons_ne_nil first rest)]
    generalize (first :: rest).getLast (List.cons_ne_nil first rest) = last
    by_cases back : first = last
    · simp [back, moves]
    · simp [back]

/-- Writing the first place again adds no edge. -/
theorem edges_of_closes {ring closed : List (Point K)} (closes : Geometry.ClosesRing ring closed) :
    edges closed = edges ring := by
  cases closes with
  | kept => rfl
  | closed first rest =>
    rw [edges, edges, circuit, Geometry.cyclicPairs_closed, List.map_append, List.filter_append]
    simp [circuit, moves]

theorem flatMap_edges_of_closes {rings closed : List (List (Point K))}
    (closes : List.Forall₂ Geometry.ClosesRing rings closed) :
    closed.flatMap edges = rings.flatMap edges := by
  induction closes with
  | nil => rfl
  | cons ring _ ih => rw [List.flatMap_cons, List.flatMap_cons, edges_of_closes ring, ih]

/-- How long a segment is. -/
def span (s : Segment K) : K :=
  let dx := s.finish.x - s.start.x
  let dy := s.finish.y - s.start.y
  Elementary.sqrt (dx * dx + dy * dy)

/-- The quotients of what a segment goes, turned by a quarter, and its length. -/
def normal (s : Segment K) : Point K :=
  ⟨-(s.finish.y - s.start.y) / s.span, (s.finish.x - s.start.x) / s.span⟩

/-- The quad along a segment. -/
def quad (words : List K) (s : Segment K) : Piece K :=
  let right : Point K := ⟨-s.normal.x, -s.normal.y⟩
  { vertices := [⟨s.start, s.normal, words⟩, ⟨s.start, right, words⟩,
      ⟨s.finish, s.normal, words⟩, ⟨s.finish, right, words⟩]
    indices := [0, 1, 2, 1, 3, 2] }

/-- The triangles of quads that are laid out one behind the other. -/
theorem indicesFrom_quads (words : List K) (base : Nat) (segments : List (Segment K)) :
    Mesh.indicesFrom base (segments.map (quad words)) =
      (List.range segments.length).flatMap fun k =>
        [0, 1, 2, 1, 3, 2].map (base + 4 * k + ·) := by
  induction segments generalizing base with
  | nil => rfl
  | cons s segments ih =>
    have shift (k : Nat) : base + (s.quad words).vertices.length + 4 * k = base + 4 * (k + 1) := by
      show base + 4 + 4 * k = base + 4 * (k + 1)
      omega
    rw [List.map_cons, Mesh.indicesFrom, ih, List.length_cons, List.range_succ_eq_map,
      List.flatMap_cons, List.flatMap_map]
    simp only [shift]
    rfl

variable [IsStrictOrderedRing K] [Elementary.Roots K]

theorem span_mul_span (s : Segment K) : s.span * s.span = s.squaredSpan :=
  Elementary.Roots.sqrt_mul_sqrt s.squaredSpan_nonneg

/-- Exactly the segments that move are of some length. -/
theorem span_eq_zero_iff {s : Segment K} : s.span = 0 ↔ s.start = s.finish := by
  rw [← mul_self_eq_zero, span_mul_span, squaredSpan, mul_self_add_mul_self_eq_zero, sub_eq_zero,
    sub_eq_zero]
  constructor
  · rintro ⟨sameX, sameY⟩
    exact eq_of_beq (Bool.and_eq_true_iff.2 ⟨beq_iff_eq.2 sameX.symm, beq_iff_eq.2 sameY.symm⟩)
  · intro same
    rw [same]
    exact ⟨rfl, rfl⟩

theorem span_pos {s : Segment K} (moves : s.moves = true) : 0 < s.span := by
  have nonneg : 0 ≤ s.span := Elementary.Roots.sqrt_nonneg s.squaredSpan_nonneg
  exact lt_of_le_of_ne nonneg fun none => moves_iff.1 moves (span_eq_zero_iff.1 none.symm)

theorem isNormal_normal {s : Segment K} (moves : s.moves = true) : s.IsNormal s.normal :=
  isNormal_of_length (span_pos moves) s.span_mul_span

theorem isQuad_quad (words : List K) {s : Segment K} (moves : s.moves = true) :
    s.IsQuad words (s.quad words).vertices :=
  ⟨s.normal, _, isNormal_normal moves, rfl, rfl⟩

/-- Exactly the segments that move have a quad. -/
theorem ofSegment?_eq (words : List K) (s : Segment K) :
    Piece.ofSegment? words s = if s.moves then some (s.quad words) else none := by
  have still : (!Scalar.isFinite s.span || s.span == Scalar.zero) = !s.moves := by
    have finite : Scalar.isFinite s.span = true := rfl
    rw [finite, Bool.not_true, Bool.false_or, Bool.eq_iff_iff, beq_iff_eq, Exact.zero_eq,
      span_eq_zero_iff, Bool.not_eq_true', ← Bool.not_eq_true, moves_iff, not_not]
  show (if (!Scalar.isFinite s.span || s.span == Scalar.zero) = true then none
    else some (s.quad words)) = _
  rw [still]
  cases s.moves <;> rfl

/-- Along the edges of rings stand quads. -/
theorem forall₂_isQuad (words : List K) (rings : List (List (Point K))) :
    List.Forall₂ (IsQuad words) (rings.flatMap edges)
      ((rings.flatMap edges).map fun s => (s.quad words).vertices) := by
  rw [List.forall₂_map_right_iff, List.forall₂_same]
  intro s edge
  obtain ⟨ring, -, ofRing⟩ := List.mem_flatMap.1 edge
  exact isQuad_quad words (List.mem_filter.1 ofRing).2

end Segment

/-! ## Areas -/

namespace Geometry

/-- Twice the area between two places and the origin. -/
def cross (pair : Point K × Point K) : K := pair.1.x * pair.2.y - pair.2.x * pair.1.y

/-- Less than three places enclose nothing, so that the sum of all pairs is right for them, too. -/
theorem ringArea_eq (ring : List (Point K)) :
    ringArea ring = ((cyclicPairs ring).map cross).sum * (1 / 2) := by
  have summed (pairs : List (Point K × Point K)) (start : K) :
      pairs.foldl (fun twice (a, b) => twice + (a.x * b.y - b.x * a.y)) start =
        start + (pairs.map cross).sum := by
    induction pairs generalizing start with
    | nil => simp
    | cons pair pairs ih =>
      rw [List.foldl_cons, ih, List.map_cons, List.sum_cons, ← add_assoc]
      rfl
  rw [ringArea]
  split
  next few =>
    match ring, few with
    | [], _ => simp [cyclicPairs]
    | [a], _ => simp [cyclicPairs, cross]
    | [a, b], _ => simp [cyclicPairs, cross]
  next =>
    simp only [summed, Exact.zero_eq, Exact.half_eq, zero_add]

theorem ringArea_of_closes {ring closed : List (Point K)} (closes : ClosesRing ring closed) :
    ringArea closed = ringArea ring := by
  cases closes with
  | kept => rfl
  | closed first rest =>
    rw [ringArea_eq, ringArea_eq, cyclicPairs_closed, List.map_append, List.sum_append]
    simp [cross, mul_comm]

theorem isDegenerate_of_closes {rings closed : List (List (Point K))}
    (closes : List.Forall₂ ClosesRing rings closed) :
    (polygon closed).isDegenerate = (polygon rings).isDegenerate := by
  have areas : closed.map ringArea = rings.map ringArea := by
    induction closes with
    | nil => rfl
    | cons ring _ ih => rw [List.map_cons, List.map_cons, ringArea_of_closes ring, ih]
  have any (rings : List (List (Point K))) : (polygon rings).isDegenerate =
      !(rings.map ringArea).any fun area => Scalar.lt areaLimit (Scalar.abs area) := by
    rw [isDegenerate, List.any_map]
    rfl
  rw [any, any, areas]

end Geometry

/-! ## Strokes -/

/-- A feature with the rings of another polygon. -/
def Prepared.withRings {W N : Type} (p : Prepared W N) (rings : List (List (Point W))) :
    Prepared W N :=
  { p with feature := { p.feature with geometry := .polygon rings } }

namespace Tessellator

variable [IsStrictOrderedRing K] [Elementary.Roots K]

/-- A stroke around rings has a quad for every segment that moves. -/
theorem pieces_stroke_eq (t : Tessellator K) (p : Prepared K K) (rings : List (List (Point K))) :
    t.pieces .stroke (p.withRings rings) =
      (rings.flatMap Segment.edges).map (Segment.quad p.words) := by
  have drawn (segments : List (Segment K)) :
      segments.filterMap (Piece.ofSegment? p.words) =
        (segments.filter Segment.moves).map (Segment.quad p.words) := by
    induction segments with
    | nil => rfl
    | cons s segments ih =>
      rw [List.filterMap_cons, Segment.ofSegment?_eq, ih]
      cases moves : s.moves with
      | false => rw [List.filter_cons_of_neg (by rw [moves]; exact Bool.false_ne_true)]; rfl
      | true => rw [List.filter_cons_of_pos moves]; rfl
  show (rings.flatMap Segment.around).filterMap (Piece.ofSegment? p.words) = _
  rw [drawn, List.filter_flatMap]
  simp only [Segment.filter_around]

/-- What a stroke around rings, whose vertices carry some words, adds to what is drawn: a quad for
every turn of every ring. -/
structure Outlined (words : List K) (rings : List (List (Point K)))
    (before after : Mesh K × List DrawRange) : Prop where
  /-- The new vertices are the corners of quads along the segments at the turns. -/
  vertices : ∃ (edges : List (Segment K)) (corners : List (List (Vertex K))),
    (edges.map some = rings.flatMap fun ring => (Segment.turns ring).map (Segment.from? ring)) ∧
    List.Forall₂ (Segment.IsQuad words) edges corners ∧
    after.1.vertices = before.1.vertices ++ corners.flatten
  /-- The new triangles are two in every quad. -/
  indices : after.1.indices = before.1.indices ++
    (List.range (Segment.turnCount rings)).flatMap fun k =>
      [0, 1, 2, 1, 3, 2].map (before.1.nextIndex + 4 * k + ·)
  vertexCount : after.1.vertices.length =
    before.1.vertices.length + 4 * Segment.turnCount rings
  indexCount : after.1.indices.length = before.1.indices.length + 6 * Segment.turnCount rings
  /-- The stroke has a range unless there is no turn. -/
  ranges : after.2 = if Segment.turnCount rings = 0 then before.2
    else before.2 ++ [⟨.stroke, before.1.indices.length, 6 * Segment.turnCount rings⟩]

theorem outlined_drawKind (t : Tessellator K) (p : Prepared K K) (rings : List (List (Point K)))
    {mesh : Mesh K} (sized : baseWords + p.words.length = mesh.vertexWords)
    (ranges : List DrawRange) :
    Outlined p.words rings (mesh, ranges)
      (t.drawKind [p.withRings rings] (mesh, ranges) .stroke) := by
  have ofFeature : Prepared.Sized mesh.vertexWords [p.withRings rings] :=
    List.forall_mem_singleton.2 sized
  have pieces : [p.withRings rings].flatMap (t.pieces .stroke) =
      (rings.flatMap Segment.edges).map (Segment.quad p.words) := by
    rw [List.flatMap_singleton, pieces_stroke_eq]
  have emitted : t.pass [p.withRings rings] .stroke =
      ((rings.flatMap Segment.edges).map fun s => (s.quad p.words).vertices).flatten := by
    rw [pass, pieces, List.flatMap_map, List.flatMap_def]
  have content := congrArg Prod.fst (drawKind_eq (t := t) ofFeature ranges .stroke)
  simp only [emitted, pieces, Segment.indicesFrom_quads, Segment.length_flatMap_edges] at content
  have counts := t.counts_drawKind (by decide : ProgramKind.stroke ≠ .fill) (p.withRings rings)
    (mesh, ranges)
  simp only [pieces_stroke_eq, List.length_map, Segment.length_flatMap_edges] at counts
  obtain ⟨vertexCount, indexCount, range⟩ := counts
  exact {
    vertices := ⟨_, _, Segment.map_some_flatMap_edges rings,
      Segment.forall₂_isQuad p.words rings, congrArg Mesh.vertices content⟩
    indices := congrArg Mesh.indices content
    vertexCount, indexCount
    ranges := range }

/-- A polygon is degenerate or not, and its stroke has the same vertices and indices, whichever of
its rings are closed explicitly and whatever is drawn before and after it. There is one quad for
every position of a ring whose next place is another one, the first place coming after the last. -/
theorem closing_unseen (t : Tessellator K) {rings closed : List (List (Point K))}
    (closes : List.Forall₂ Geometry.ClosesRing rings closed) :
    (Geometry.polygon closed).isDegenerate = (Geometry.polygon rings).isDegenerate ∧
    ∀ p : Prepared K K,
      (∀ (earlier later : List (Prepared K K)) (drawn : Mesh K × List DrawRange),
        t.drawKind (earlier ++ p.withRings closed :: later) drawn .stroke =
          t.drawKind (earlier ++ p.withRings rings :: later) drawn .stroke) ∧
      ∀ (mesh : Mesh K) (ranges : List DrawRange),
        baseWords + p.words.length = mesh.vertexWords →
          Outlined p.words rings (mesh, ranges)
            (t.drawKind [p.withRings rings] (mesh, ranges) .stroke) := by
  refine ⟨Geometry.isDegenerate_of_closes closes, fun p => ⟨fun earlier later drawn => ?_,
    fun mesh ranges sized => t.outlined_drawKind p rings sized ranges⟩⟩
  have same : t.pieces .stroke (p.withRings closed) = t.pieces .stroke (p.withRings rings) := by
    rw [pieces_stroke_eq, pieces_stroke_eq, Segment.flatMap_edges_of_closes closes]
  simp only [drawKind, List.flatMap_append, List.flatMap_cons, same]

end Tessellator

/-! ## Over the real numbers -/

instance : Elementary.Roots ℝ where
  sqrt_nonneg _ := Real.sqrt_nonneg _
  sqrt_mul_sqrt := Real.mul_self_sqrt

namespace Tessellator

/-- A place with natural coordinates. -/
def gridPoint (x y : ℕ) : Point ℝ := ⟨x, y⟩

/-- A triangle, two places, and two places of which one is written twice. -/
def outlines : List (List (Point ℝ)) :=
  [[gridPoint 0 0, gridPoint 4 0, gridPoint 0 3], [gridPoint 0 0, gridPoint 1 1],
    [gridPoint 2 0, gridPoint 2 0, gridPoint 0 0]]

/-- The same, the first two closed explicitly. -/
def closedOutlines : List (List (Point ℝ)) :=
  [[gridPoint 0 0, gridPoint 4 0, gridPoint 0 3, gridPoint 0 0],
    [gridPoint 0 0, gridPoint 1 1, gridPoint 0 0], [gridPoint 2 0, gridPoint 2 0, gridPoint 0 0]]

/-- A feature without attributes. -/
def plainFeature : Prepared ℝ ℝ :=
  { index := 0
    feature := ⟨none, .polygon [], Dictionary.empty⟩
    zIndex := 0
    words := []
    icon := none
    text := none }

/-- The stroke of either consists of seven quads: three around the triangle, and two there and back
in each of the other rings. -/
theorem outlines_unseen :
    let t : Tessellator ℝ := ⟨1, fun _ => ⟨[], []⟩⟩
    let drawn (rings : List (List (Point ℝ))) : Mesh ℝ × List DrawRange :=
      t.drawKind [plainFeature.withRings rings] (Mesh.empty baseWords, []) .stroke
    List.Forall₂ Geometry.ClosesRing outlines closedOutlines ∧
      (Geometry.polygon outlines).isDegenerate = false ∧
      (Geometry.polygon closedOutlines).isDegenerate = false ∧
      drawn closedOutlines = drawn outlines ∧
      (drawn outlines).1.vertices.length = 28 ∧
      (drawn outlines).1.indices.length = 42 ∧
      (drawn outlines).2 = [⟨.stroke, 0, 42⟩] := by
  intro t drawn
  have closes : List.Forall₂ Geometry.ClosesRing outlines closedOutlines :=
    .cons (.closed _ _) (.cons (.closed _ _) (.cons (.kept _) .nil))
  obtain ⟨degenerate, strokes⟩ := closing_unseen t closes
  obtain ⟨same, outlined⟩ := strokes plainFeature
  have area : (Geometry.polygon outlines).isDegenerate = false := by
    have triangle : Geometry.ringArea [gridPoint 0 0, gridPoint 4 0, gridPoint 0 3] = 6 := by
      rw [Geometry.ringArea_eq]
      norm_num [Geometry.cyclicPairs, Geometry.cross, gridPoint]
    have limit : (Geometry.areaLimit : ℝ) = 1 / 2 ^ 52 := by
      rw [Geometry.areaLimit, Exact.one_eq, Exact.ofNat_eq]
      norm_num
    have wide : Scalar.lt (Geometry.areaLimit : ℝ) (Scalar.abs 6) = true := by
      rw [limit, Exact.lt_iff]
      show (1 : ℝ) / 2 ^ 52 < |6|
      norm_num
    simp [Geometry.isDegenerate, outlines, triangle, wide]
  have seven : Segment.turnCount outlines = 7 := by
    simp [outlines, gridPoint, Segment.turnCount, Segment.turns, Segment.from?, Segment.moves,
      List.range_succ]
  have added := outlined (Mesh.empty baseWords) [] rfl
  refine ⟨closes, area, degenerate.trans area, same [] [] _, ?_, ?_, ?_⟩
  · rw [added.vertexCount, seven]
    rfl
  · rw [added.indexCount, seven]
    rfl
  · rw [added.ranges, seven]
    rfl

end Tessellator

end MapStyle
