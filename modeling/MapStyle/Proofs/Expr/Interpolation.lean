import Mathlib
import MapStyle.Proofs.Expr.ParserTyping
import MapStyle.Proofs.Number.Exact

/-!
# Interpolation stays between its stops

Over exact numbers a curve through ascending stops has the output of every stop at the stop, keeps
the first and the last output outside, and lies between two outputs between two stops. What it
takes is a divisor that is not zero (`Curve.rise`), and that is why the base of an exponential
curve must not be negative: `Elementary.Powers` is what is assumed of powers of other bases, and the
real numbers keep it. For a negative base nothing of this holds. The powers of minus one come back
to one, so that a curve of this base divides by zero between stops that are two apart.
-/

namespace MapStyle

/-! ## Powers -/

open Elementary in
/-- Powers of bases that are not negative grow with the exponent, or shrink, or vanish. -/
class Elementary.Powers (K : Type) [Field K] [LinearOrder K] [Elementary K] : Prop where
  power_zero (base : K) : power base 0 = 1
  zero_power {exponent : K} : 0 < exponent → power 0 exponent = 0
  strictMono_power {base : K} : 1 < base → StrictMono (power base)
  strictAnti_power {base : K} : 0 < base → base < 1 → StrictAnti (power base)

namespace Curve

section Search

variable {α : Type} {K : Type} [Field K] [LinearOrder K] [FloorRing K] [Elementary K]
  {stops : List (K × α)} {x : K} {low high : K × α}

/-- Two stops in a row enclose a place: the lower one lies below it, and the upper one does not,
unless there are no more stops. -/
structure Encloses (stops : List (K × α)) (x : K) (low high : K × α) : Prop where
  consecutive : [low, high] <:+: stops
  above : low.1 < x
  below : x ≤ high.1 ∨ stops.getLast? = some high

/-- The search goes on from a segment that ends where the stops that are left begin, or that has
the place in it. -/
theorem encloses_lastSegment {before : List (K × α)} {segment : (K × α) × (K × α)}
    {next : K × α} {rest : List (K × α)}
    (consecutive : [segment.1, segment.2] <:+: before ++ next :: rest) (above : segment.1.1 < x)
    (below : x ≤ segment.2.1 ∨ segment.2 = next) :
    Encloses (before ++ next :: rest) x (lastSegment x segment (next :: rest)).1
      (lastSegment x segment (next :: rest)).2 := by
  induction rest generalizing before segment next with
  | nil =>
    refine ⟨consecutive, above, below.imp_right fun same => ?_⟩
    rw [List.getLast?_append, lastSegment, same]
    · rfl
    · simp
  | cons high rest ih =>
    rw [lastSegment, List.append_cons]
    rw [List.append_cons] at consecutive
    by_cases lower : next.1 < x
    · rw [if_pos (Exact.lt_iff.2 lower)]
      exact ih ⟨before, rest, by simp⟩ lower (.inr rfl)
    · rw [if_neg (mt Exact.lt_iff.1 lower)]
      refine ih consecutive above (.inl ?_)
      rcases below with inside | rfl
      · exact inside
      · exact not_lt.1 lower

/-- The segment that is looked for does not depend on what stands at the stops. -/
theorem lastSegment_map {β : Type} (f : α → β) (segment : (K × α) × (K × α))
    (stops : List (K × α)) :
    lastSegment x (segment.map (Prod.map id f) (Prod.map id f)) (stops.map (Prod.map id f)) =
      (lastSegment x segment stops).map (Prod.map id f) (Prod.map id f) := by
  induction stops generalizing segment with
  | nil => rfl
  | cons low stops ih =>
    cases stops with
    | nil => rfl
    | cons high rest =>
      rw [List.map_cons, List.map_cons, lastSegment, lastSegment, ← List.map_cons, ← ih]
      simp only [Prod.map_fst, id]
      split <;> rfl

end Search

/-! ## Segments -/

section Factor

variable {K : Type} [Field K] [LinearOrder K] [FloorRing K] [Elementary K] {curve : Curve K}
  {low high x : K}

/-- How far a curve has risen from one place to another. The factor between two stops is what it
has risen to a place, divided by what it rises to the upper stop. -/
def rise {W : Type} [Scalar W] (curve : Curve W) (low x : W) : W :=
  match curve with
  | .linear => x - low
  | .exponential base =>
    if base == Scalar.one then x - low else Scalar.power base (x - low) - Scalar.one

theorem factor_eq {W : Type} [Scalar W] (curve : Curve W) (x low high : W) :
    curve.factor x low high =
      Scalar.clamp (curve.rise low x / curve.rise low high) Scalar.zero Scalar.one := by
  cases curve with
  | linear => rfl
  | exponential base =>
    simp only [factor, rise]
    split <;> rfl

/-- An exponential curve of base one is linear. -/
theorem rise_one (low x : K) : (exponential 1).rise low x = x - low := by
  rw [rise, Exact.one_eq, beq_self_eq_true, if_pos rfl]

theorem rise_exponential {base : K} (other : base ≠ 1) (low x : K) :
    (exponential base).rise low x = Elementary.power base (x - low) - 1 := by
  rw [rise, Exact.one_eq, beq_eq_false_iff_ne.2 other, if_neg Bool.false_ne_true]
  rfl

/-- The base of the curve is not negative, if it has one. -/
def Nonnegative : Curve K → Prop
  | .linear => True
  | .exponential base => 0 ≤ base

theorem factor_mem (curve : Curve K) (x low high : K) :
    0 ≤ curve.factor x low high ∧ curve.factor x low high ≤ 1 := by
  rw [factor_eq, Exact.zero_eq, Exact.one_eq, Exact.clamp_eq zero_le_one]
  exact ⟨le_max_left _ _, max_le zero_le_one (min_le_right _ _)⟩

variable [IsStrictOrderedRing K]

/-- A blend of two numbers lies between them. -/
theorem blend_mem {a b t : K} (least : 0 ≤ t) (most : t ≤ 1) :
    min a b ≤ a + (b - a) * t ∧ a + (b - a) * t ≤ max a b := by
  rcases le_total a b with rises | falls
  · rw [min_eq_left rises, max_eq_right rises]
    constructor <;> nlinarith
  · rw [min_eq_right falls, max_eq_left falls]
    constructor <;> nlinarith

variable [Elementary.Powers K]

open Elementary.Powers in
/-- A curve rises or falls from a stop on, and it does not turn back. -/
theorem rise_sides (nonnegative : curve.Nonnegative) (apart : low < high) (beyond : high ≤ x) :
    (0 < curve.rise low high ∧ curve.rise low high ≤ curve.rise low x) ∨
      (curve.rise low high < 0 ∧ curve.rise low x ≤ curve.rise low high) := by
  have positive : 0 < high - low := sub_pos.2 apart
  have least : high - low ≤ x - low := sub_le_sub_right beyond low
  cases curve with
  | linear => exact .inl ⟨positive, least⟩
  | exponential base =>
    by_cases one : base = 1
    · rw [one, rise_one, rise_one]
      exact .inl ⟨positive, least⟩
    have start : Elementary.power base 0 = 1 := power_zero base
    rw [rise_exponential one, rise_exponential one, sub_pos, sub_neg, sub_le_sub_iff_right,
      sub_le_sub_iff_right]
    rcases nonnegative.eq_or_lt with rfl | strict
    · rw [zero_power positive, zero_power (positive.trans_le least)]
      exact .inr ⟨zero_lt_one, le_refl _⟩
    rcases lt_or_gt_of_ne one with small | great
    · have falls := strictAnti_power strict small
      exact .inr ⟨(falls positive).trans_eq start, falls.antitone least⟩
    · have grows := strictMono_power great
      exact .inl ⟨start.symm.trans_lt (grows positive), grows.monotone least⟩

theorem rise_ne_zero (nonnegative : curve.Nonnegative) (apart : low < high) :
    curve.rise low high ≠ 0 := by
  rcases rise_sides nonnegative apart (le_refl high) with ⟨rises, -⟩ | ⟨falls, -⟩
  · exact rises.ne'
  · exact falls.ne

/-- From the upper stop on, the factor is one. -/
theorem factor_eq_one (nonnegative : curve.Nonnegative) (apart : low < high) (beyond : high ≤ x) :
    curve.factor x low high = 1 := by
  have whole : 1 ≤ curve.rise low x / curve.rise low high := by
    rcases rise_sides nonnegative apart beyond with ⟨rises, further⟩ | ⟨falls, further⟩
    · exact (one_le_div rises).2 further
    · exact (one_le_div_of_neg falls).2 further
  rw [factor_eq, Exact.zero_eq, Exact.one_eq, Exact.clamp_eq zero_le_one, min_eq_right whole,
    max_eq_right zero_le_one]

end Factor

/-! ## Ascending stops -/

section Ascending

variable {α : Type} {K : Type} [LinearOrder K] {stops : List (K × α)} {p q r : K × α}

theorem lt_of_consecutive (ascending : stops.Pairwise (·.1 < ·.1))
    (consecutive : [p, q] <:+: stops) : p.1 < q.1 := by
  have pair : [p, q].Pairwise (·.1 < ·.1) := ascending.sublist consecutive.sublist
  exact (List.pairwise_cons.1 pair).1 q (List.mem_singleton_self q)

/-- No stop lies between two in a row. -/
theorem outside_of_consecutive (ascending : stops.Pairwise (·.1 < ·.1))
    (consecutive : [p, q] <:+: stops) (member : r ∈ stops) : r.1 ≤ p.1 ∨ q.1 ≤ r.1 := by
  obtain ⟨before, after, rfl⟩ := consecutive
  simp only [List.append_assoc, List.cons_append, List.nil_append, List.pairwise_append,
    List.pairwise_cons, List.mem_append, List.mem_cons] at ascending member
  obtain ⟨-, ⟨-, later, -⟩, earlier⟩ := ascending
  rcases member with first | rfl | rfl | last
  · exact .inl (earlier r first p (.inl rfl)).le
  · exact .inl (le_refl _)
  · exact .inr (le_refl _)
  · exact .inr (later r last).le

theorem eq_of_place (ascending : stops.Pairwise (·.1 < ·.1)) (first : p ∈ stops)
    (second : q ∈ stops) (same : p.1 = q.1) : p = q := by
  have distinct : (stops.map Prod.fst).Nodup :=
    (List.pairwise_map.2 ascending).imp fun less => less.ne
  exact List.inj_on_of_nodup_map distinct first second same

theorem le_last (ascending : stops.Pairwise (·.1 < ·.1)) (last : stops.getLast? = some q)
    (member : p ∈ stops) : p.1 ≤ q.1 := by
  obtain ⟨before, rfl⟩ := List.getLast?_eq_some_iff.1 last
  rw [List.pairwise_append] at ascending
  rcases List.mem_append.1 member with earlier | same
  · exact (ascending.2.2 p earlier q (List.mem_singleton_self q)).le
  · rw [List.mem_singleton.1 same]

theorem first_le (ascending : stops.Pairwise (·.1 < ·.1)) (first : stops.head? = some q)
    (member : p ∈ stops) : q.1 ≤ p.1 := by
  obtain ⟨after, rfl⟩ := List.head?_eq_some_iff.1 first
  rcases List.mem_cons.1 member with rfl | later
  · exact le_refl _
  · exact ((List.pairwise_cons.1 ascending).1 p later).le

end Ascending

/-! ## Values -/

/-- The output of a stop as the interpreter has it. -/
def evaluated {K : Type} (p : K × K) : K × Outcome (Value K K) :=
  Prod.map id (fun y => .ok (.number y)) p

theorem evaluated_fst {K : Type} (p : K × K) : (evaluated p).1 = p.1 := rfl

section Values

variable {K : Type} [LinearOrder K] {points : List (K × K)} {x y : K}

/-- What a curve through some points may be at a place: the output of a stop at the stop, the first
and the last output outside the stops, and between two stops a number between their outputs. -/
structure Follows (points : List (K × K)) (x y : K) : Prop where
  before : ∀ p, points.head? = some p → x ≤ p.1 → y = p.2
  after : ∀ p, points.getLast? = some p → p.1 ≤ x → y = p.2
  atStop : ∀ p ∈ points, x = p.1 → y = p.2
  between : ∀ p q, [p, q] <:+: points → p.1 ≤ x → x ≤ q.1 → min p.2 q.2 ≤ y ∧ y ≤ max p.2 q.2

/-- It is enough to look at the stops and strictly between them. -/
theorem Follows.of_strict (before : ∀ p, points.head? = some p → x < p.1 → y = p.2)
    (after : ∀ p, points.getLast? = some p → p.1 < x → y = p.2)
    (atStop : ∀ p ∈ points, x = p.1 → y = p.2)
    (between : ∀ p q, [p, q] <:+: points → p.1 < x → x < q.1 →
      min p.2 q.2 ≤ y ∧ y ≤ max p.2 q.2) : Follows points x y where
  before p first least := least.lt_or_eq.elim (before p first) (atStop p (List.mem_of_head? first))
  after p last most :=
    most.lt_or_eq.elim (after p last) fun same => atStop p (List.mem_of_getLast? last) same.symm
  atStop := atStop
  between p q consecutive least most := by
    rcases least.eq_or_lt with same | above
    · rw [atStop p (consecutive.subset List.mem_cons_self) same.symm]
      exact ⟨min_le_left _ _, le_max_left _ _⟩
    rcases most.eq_or_lt with same | below
    · rw [atStop q (consecutive.subset (by simp)) same]
      exact ⟨min_le_right _ _, le_max_right _ _⟩
    exact between p q consecutive above below

/-- Up to the first stop a curve is constant. -/
theorem follows_first {first : K × K} (ascending : points.Pairwise (·.1 < ·.1))
    (leads : points.head? = some first) (below : x ≤ first.1) : Follows points x first.2 := by
  have member : first ∈ points := List.mem_of_head? leads
  refine .of_strict (fun p leads' _ => ?_) (fun p last beyond => ?_) (fun p inPoints same => ?_)
    fun p q consecutive above _ => ?_
  · rw [Option.some.inj (leads'.symm.trans leads)]
  · exact absurd (below.trans (le_last ascending last member)) (not_le.2 beyond)
  · have least : first.1 ≤ p.1 := first_le ascending leads inPoints
    rw [eq_of_place ascending inPoints member (le_antisymm (same ▸ below) least)]
  · have least : first.1 ≤ p.1 := first_le ascending leads (consecutive.subset List.mem_cons_self)
    exact absurd (below.trans least) (not_le.2 above)

variable [Field K] [FloorRing K] [Elementary K] {curve : Curve K}

/-- The value at `x` on the segment between two stops. -/
def onSegment (curve : Curve K) (x : K)
    (segment : (K × Outcome (Value K K)) × (K × Outcome (Value K K))) : Outcome (Value K K) := do
  blend (curve.factor x segment.1.1 segment.2.1) (← segment.1.2) (← segment.2.2)

theorem sample_eq (first second : K × Outcome (Value K K))
    (rest : List (K × Outcome (Value K K))) :
    curve.sample x (first :: second :: rest) =
      if Scalar.le x first.1 then first.2
      else onSegment curve x (lastSegment x (first, second) (second :: rest)) := rfl

variable [IsStrictOrderedRing K] [Elementary.Powers K]

/-- Beyond the first stop a curve blends the outputs of the stops that enclose the place. -/
theorem follows_blend {low high : K × K} (nonnegative : curve.Nonnegative)
    (ascending : points.Pairwise (·.1 < ·.1)) (encloses : Encloses points x low high) :
    Follows points x (low.2 + (high.2 - low.2) * curve.factor x low.1 high.1) := by
  obtain ⟨consecutive, above, below⟩ := encloses
  have apart : low.1 < high.1 := lt_of_consecutive ascending consecutive
  have lowMember : low ∈ points := consecutive.subset List.mem_cons_self
  have highMember : high ∈ points := consecutive.subset (by simp)
  have atUpper (beyond : high.1 ≤ x) :
      low.2 + (high.2 - low.2) * curve.factor x low.1 high.1 = high.2 := by
    rw [factor_eq_one nonnegative apart beyond]
    ring
  -- A stop that does not lie below the place does not lie below the upper stop.
  have upper {p : K × K} (inPoints : p ∈ points) (beyond : x ≤ p.1) : high.1 ≤ p.1 :=
    (outside_of_consecutive ascending consecutive inPoints).resolve_left
      (not_le.2 (above.trans_le beyond))
  refine .of_strict (fun p leads earlier => ?_) (fun p last beyond => ?_)
    (fun p inPoints same => ?_) fun p q inRow least most => ?_
  · exact absurd (first_le ascending leads lowMember) (not_le.2 (above.trans earlier))
  · have most : high.1 ≤ p.1 := le_last ascending last highMember
    rw [atUpper (most.trans beyond.le)]
    rcases below with inside | isLast
    · exact absurd (inside.trans most) (not_le.2 beyond)
    · rw [Option.some.inj (isLast.symm.trans last)]
  · have least : high.1 ≤ p.1 := upper inPoints same.le
    rw [atUpper (least.trans_eq same.symm)]
    have most : p.1 ≤ high.1 :=
      below.elim same.symm.trans_le fun isLast => le_last ascending isLast inPoints
    rw [eq_of_place ascending highMember inPoints (le_antisymm least most)]
  · have pMember : p ∈ points := inRow.subset List.mem_cons_self
    have qMember : q ∈ points := inRow.subset (by simp)
    have highest : high.1 ≤ q.1 := upper qMember most.le
    have lowest : p.1 ≤ low.1 := by
      refine (outside_of_consecutive ascending consecutive pMember).resolve_right fun beyond => ?_
      rcases below with inside | isLast
      · exact absurd (inside.trans beyond) (not_le.2 least)
      · exact absurd ((le_last ascending isLast qMember).trans beyond) (not_le.2 (least.trans most))
    have samePlace : low = p := by
      refine eq_of_place ascending lowMember pMember (le_antisymm ?_ lowest)
      exact (outside_of_consecutive ascending inRow lowMember).resolve_right
        (not_le.2 (above.trans most))
    have sameUpper : high = q := by
      refine eq_of_place ascending highMember qMember (le_antisymm highest ?_)
      refine (outside_of_consecutive ascending inRow highMember).resolve_left ?_
      exact not_le.2 (samePlace ▸ apart)
    rw [samePlace, sameUpper]
    exact blend_mem (factor_mem curve x p.1 q.1).1 (factor_mem curve x p.1 q.1).2

/-- A curve through numbers has a number at every place, and it follows the curve. -/
theorem follows_sample (nonnegative : curve.Nonnegative) (nonempty : points ≠ [])
    (ascending : points.Pairwise (·.1 < ·.1)) (x : K) :
    ∃ y, curve.sample x (points.map evaluated) = .ok (.number y) ∧ Follows points x y := by
  rcases points with _ | ⟨first, _ | ⟨second, rest⟩⟩
  · exact absurd rfl nonempty
  · refine ⟨first.2, rfl, .of_strict ?_ ?_ ?_ ?_⟩
    · simp
    · simp
    · simp
    · intro p q consecutive
      have short := consecutive.length_le
      simp at short
  rw [List.map_cons, List.map_cons, sample_eq, evaluated_fst]
  by_cases below : x ≤ first.1
  · rw [if_pos (Exact.le_iff.2 below)]
    exact ⟨first.2, rfl, follows_first ascending rfl below⟩
  · have encloses : Encloses ([first] ++ second :: rest) x
        (lastSegment x (first, second) (second :: rest)).1
        (lastSegment x (first, second) (second :: rest)).2 :=
      encloses_lastSegment ⟨[], rest, rfl⟩ (not_le.1 below) (.inr rfl)
    have chosen : lastSegment x (evaluated first, evaluated second)
        ((second :: rest).map evaluated) = _ := lastSegment_map _ (first, second) (second :: rest)
    rw [if_neg (mt Exact.le_iff.1 below), ← List.map_cons, chosen]
    exact ⟨_, rfl, follows_blend nonnegative ascending encloses⟩

end Values

end Curve

/-! ## Parsed interpolations -/

namespace Parse

variable {K : Type} [Field K] [LinearOrder K] [IsStrictOrderedRing K] [FloorRing K] [Elementary K]
  [Elementary.Powers K]

omit [IsStrictOrderedRing K] [Elementary.Powers K] in
/-- Stops whose outputs are numbers, as the interpreter has them. -/
theorem evaluateStops_of_numbers {c : Context K K} {stops : List (K × Expr K K)}
    {points : List (K × K)} (ofStops : List.Forall₂ (fun stop point => stop.1 = point.1 ∧
      stop.2.evaluate c = .ok (.number point.2)) stops points) :
    stops.map Prod.fst = points.map Prod.fst ∧
      Expr.evaluateStops c stops = points.map Curve.evaluated := by
  induction ofStops with
  | nil => exact ⟨rfl, rfl⟩
  | cons ofFirst _ ih =>
    obtain ⟨place, output⟩ := ofFirst
    obtain ⟨places, outputs⟩ := ih
    refine ⟨congrArg₂ List.cons place places, ?_⟩
    rw [Expr.evaluateStops, output, place, outputs]
    rfl

/-- A parsed interpolation whose base is not negative never divides by zero: on every segment the
factor is a proper quotient, clamped between zero and one. Beyond the first stop the segment that is
chosen is the one that encloses the place. So where the input and the outputs of all stops are
numbers, the interpolation is a number that follows the curve. -/
theorem interpolation_follows {parser : Parser K K} {json : Json} {hint : Option ValueType}
    {curve : Curve K} {input : Expr K K} {stops : List (K × Expr K K)} {type : ValueType}
    (parsed : tree parser json hint = .ok (.interpolate curve input stops type))
    (nonnegative : curve.Nonnegative) (x : K) :
    (∀ low high, [low, high] <:+: stops → curve.rise low.1 high.1 ≠ 0 ∧
      0 ≤ curve.factor x low.1 high.1 ∧ curve.factor x low.1 high.1 ≤ 1) ∧
    (∀ first second rest, stops = first :: second :: rest → first.1 < x →
      let segment := Curve.lastSegment x (first, second) (second :: rest)
      Curve.Encloses stops x segment.1 segment.2) ∧
    ∀ (c : Context K K) points, input.evaluate c = .ok (.number x) →
      List.Forall₂ (fun stop point => stop.1 = point.1 ∧
        stop.2.evaluate c = .ok (.number point.2)) stops points →
      ∃ y, (Expr.interpolate curve input stops type).evaluate c = .ok (.number y) ∧
        Curve.Follows points x y := by
  obtain ⟨⟨-, nonempty, -, -, inOrder⟩, -⟩ :=
    Expr.wellTyped_interpolate_iff.1 (tree_sound json hint _ parsed)
  have ascending : stops.Pairwise (·.1 < ·.1) := inOrder.imp Exact.lt_iff.1
  refine ⟨fun low high consecutive => ?_, ?_, fun c points ofInput ofStops => ?_⟩
  · exact ⟨Curve.rise_ne_zero nonnegative (Curve.lt_of_consecutive ascending consecutive),
      Curve.factor_mem curve x low.1 high.1⟩
  · rintro first second rest rfl above
    show Curve.Encloses ([first] ++ second :: rest) x _ _
    exact Curve.encloses_lastSegment ⟨[], rest, rfl⟩ above (.inr rfl)
  · obtain ⟨places, outputs⟩ := evaluateStops_of_numbers ofStops
    have nonempty : points ≠ [] := by
      rintro rfl
      cases ofStops
      exact nonempty rfl
    have ascending : points.Pairwise (·.1 < ·.1) := by
      rw [← List.pairwise_map (f := Prod.fst) (R := (· < ·)), ← places]
      exact List.pairwise_map.2 ascending
    rw [Expr.evaluate, outputs, ofInput]
    exact Curve.follows_sample nonnegative nonempty ascending x

end Parse

/-! ## Over the real numbers -/

open Classical in
/-- The real numbers with the functions that are meant. Numbers have no text here. -/
noncomputable instance Exact.real : Elementary ℝ where
  remainder x y := x - y * (if 0 ≤ x / y then ⌊x / y⌋ else ⌈x / y⌉)
  power x y := x ^ y
  sqrt := Real.sqrt
  sin := Real.sin
  cos := Real.cos
  atan := Real.arctan
  atan2 y x := Complex.arg ⟨x, y⟩
  infinity := 0
  undefined := 0
  text _ := ""
  literal _ := ""
  code _ := 0
  precedes x y := decide (x < y)

instance : Elementary.Powers ℝ where
  power_zero := Real.rpow_zero
  zero_power positive := Real.zero_rpow positive.ne'
  strictMono_power great := fun _ _ => Real.rpow_lt_rpow_of_exponent_lt great
  strictAnti_power strict small := fun _ _ => Real.rpow_lt_rpow_of_exponent_gt strict small

namespace Parse

/-- A curve from one at the zoom zero to five at the zoom two. -/
def growth (base : Int) : Json :=
  let number (n : Int) : Json := .number (.integer n)
  .array [.string "interpolate", .array [.string "exponential", number base],
    .array [.string "zoom"], number 0, number 1, number 2, number 5]

/-- The stops of `growth`. -/
def growthStops : List (ℝ × Expr ℝ ℝ) := [(0, .literal (.number 1)), (2, .literal (.number 5))]

theorem toScalar_integer (n : Int) : (Json.Number.integer n).toScalar = (n : ℝ) := by
  show Exact.ofDecimal (Decimal.ofInt n) = (n : ℝ)
  simp only [Exact.ofDecimal, Decimal.ofInt, zpow_zero, mul_one, Nat.cast_natAbs, decide_eq_true_eq]
  split
  next negative => rw [abs_of_neg negative, Int.cast_neg, neg_neg]
  next positive => rw [abs_of_nonneg (not_lt.1 positive)]

/-- A number is the output of a stop, whether it is the first or comes after numbers. -/
theorem parseBranch_integer (parser : Parser ℝ ℝ) (n : Int) {type : Option ValueType}
    (fits : type.getD .number = .number) (operator : String) :
    (Argument.mk (.number (.integer n)) (tree parser (.number (.integer n)))).parseBranch parser
      operator type = .ok (.literal (.number n), .number) := by
  rw [← toScalar_integer]
  cases type with
  | none => rfl
  | some type =>
    cases fits
    rfl

theorem growth_parsed (base : Int) : tree (.start .empty) (growth base) none =
    .ok (.interpolate (.exponential (base : ℝ)) (.input .zoom .number) growthStops .number) := by
  have input : (Argument.mk (.array [.string "zoom"]) (tree (.start .empty)
      (.array [.string "zoom"]))).parseAs (.start .empty) "interpolate" .number =
        .ok (.input .zoom .number : Expr ℝ ℝ) := rfl
  have apart : Scalar.le (2 : ℝ) 0 = false := decide_eq_false (by norm_num)
  rw [growth, tree_call (f := .interpolate) rfl]
  simp only [arguments, form, curveOf, stops, ascend, Json.number?, toScalar_integer,
    Int.cast_ofNat, Int.cast_zero, apart]
  rw [if_neg (by simp), input, parseBranch_integer _ 1 rfl]
  simp only [bind, Except.bind]
  rw [parseBranch_integer _ 5 rfl]
  simp [growthStops, interpolation, Expr.type, Value.type, pure, Except.pure]

/-- A frame at a zoom, without a feature. -/
def atZoom (zoom : ℝ) : Context ℝ ℝ := ⟨noProperties, .empty, .empty, zoom, 1, 0⟩

/-- At the zoom one, a curve of the base two lies between one and five. -/
theorem doubling_follows :
    let e : Expr ℝ ℝ :=
      .interpolate (.exponential ((2 : Int) : ℝ)) (.input .zoom .number) growthStops .number
    tree (.start .empty) (growth 2) none = .ok e ∧
      ∃ y, e.evaluate (atZoom 1) = .ok (.number y) ∧ 1 ≤ y ∧ y ≤ 5 := by
  obtain ⟨-, -, values⟩ := interpolation_follows (growth_parsed 2)
    (show (0 : ℝ) ≤ ((2 : Int) : ℝ) by norm_num) 1
  obtain ⟨y, evaluated, follows⟩ := values (atZoom 1) [(0, 1), (2, 5)] rfl
    (.cons ⟨rfl, rfl⟩ (.cons ⟨rfl, rfl⟩ .nil))
  obtain ⟨least, most⟩ := follows.between (0, 1) (2, 5) (List.infix_refl _) zero_le_one
    (by norm_num)
  rw [min_eq_left (by norm_num)] at least
  rw [max_eq_right (by norm_num)] at most
  exact ⟨growth_parsed 2, y, evaluated, least, most⟩

/-- A curve of the base minus one is parsed as well. Between stops that are two apart it does not
rise at all, so that its factor is a quotient by zero. -/
theorem alternating_vanishes :
    tree (.start .empty) (growth (-1)) none = .ok (.interpolate
        (.exponential ((-1 : Int) : ℝ)) (.input .zoom .number) growthStops .number) ∧
      ∃ low high, [low, high] <:+: growthStops ∧
        (Curve.exponential ((-1 : Int) : ℝ)).rise low.1 high.1 = 0 := by
  refine ⟨growth_parsed (-1), _, _, List.infix_refl _, ?_⟩
  rw [Curve.rise_exponential (by norm_num)]
  show ((-1 : Int) : ℝ) ^ ((2 : ℝ) - 0) - 1 = 0
  rw [sub_zero, Real.rpow_two]
  norm_num

end Parse

end MapStyle
