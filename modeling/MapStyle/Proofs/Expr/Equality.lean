import MapStyle.Proofs.Digest.Equality
import MapStyle.Proofs.Expr.Digest

/-!
# Equal expressions

The digest of a tree takes its literals with one zero for both, but stops and bases by their bit
patterns. `Expr.written` lists the latter in the order of the digest: they tell equal trees apart,
and nothing else does.
-/

namespace MapStyle

variable {W N : Type}

/-- The base of a curve that has one. -/
def Curve.written : Curve W → List W
  | linear => []
  | exponential base => [base]

namespace Expr

mutual

/-- The bases and the stops of a tree. -/
def written : Expr W N → List W
  | literal _ | property _ _ | input _ _ | external _ _ => []
  | operator _ args _ => writtenOfAll args
  | interpolate curve x stops _ => curve.written ++ (written x ++ writtenOfStops stops)
  | case branches fallback _ => writtenOfBranches branches ++ written fallback

/-- The bases and the stops of some trees. -/
def writtenOfAll : List (Expr W N) → List W
  | [] => []
  | e :: rest => written e ++ writtenOfAll rest

/-- Some stops, each before the bases and the stops of its output. -/
def writtenOfStops : List (W × Expr W N) → List W
  | [] => []
  | (stop, output) :: rest => [stop] ++ written output ++ writtenOfStops rest

/-- The bases and the stops of some branches. -/
def writtenOfBranches : List (Expr W N × Expr W N) → List W
  | [] => []
  | (condition, result) :: rest => written condition ++ written result ++ writtenOfBranches rest

end

theorem writtenOfAll_eq (args : List (Expr W N)) : writtenOfAll args = args.flatMap written := by
  induction args with
  | nil => rfl
  | cons arg rest ih => rw [writtenOfAll, ih, List.flatMap_cons]

theorem writtenOfStops_eq (stops : List (W × Expr W N)) :
    writtenOfStops stops = stops.flatMap fun stop => [stop.1] ++ stop.2.written := by
  induction stops with
  | nil => rfl
  | cons stop rest ih => rw [writtenOfStops, ih, List.flatMap_cons]

theorem writtenOfBranches_eq (branches : List (Expr W N × Expr W N)) :
    writtenOfBranches branches =
      branches.flatMap fun branch => branch.1.written ++ branch.2.written := by
  induction branches with
  | nil => rfl
  | cons branch rest ih => rw [writtenOfBranches, ih, List.flatMap_cons]

variable [Scalar W] [Scalar N]

/-! ## Lists of equal trees -/

theorem equalAll_eq (as bs : List (Expr W N)) : equalAll as bs = as.isEqv bs equal := by
  induction as generalizing bs with
  | nil => cases bs <;> simp [equalAll, List.isEqv]
  | cons a as ih =>
    cases bs with
    | nil => simp [equalAll, List.isEqv]
    | cons b bs => rw [equalAll, ih, List.isEqv]

theorem equalStops_eq (as bs : List (W × Expr W N)) :
    equalStops as bs = as.isEqv bs fun a b => a.1 == b.1 && equal a.2 b.2 := by
  induction as generalizing bs with
  | nil => cases bs <;> simp [equalStops, List.isEqv]
  | cons a as ih =>
    cases bs with
    | nil => simp [equalStops, List.isEqv]
    | cons b bs => rw [equalStops, ih, List.isEqv]

theorem equalBranches_eq (as bs : List (Expr W N × Expr W N)) :
    equalBranches as bs = as.isEqv bs fun a b => equal a.1 b.1 && equal a.2 b.2 := by
  induction as generalizing bs with
  | nil => cases bs <;> simp [equalBranches, List.isEqv]
  | cons a as ih =>
    cases bs with
    | nil => simp [equalBranches, List.isEqv]
    | cons b bs => rw [equalBranches, ih, List.isEqv]

end Expr

/-! ## Trees -/

variable [Scalar W] [Scalar.Coded W] [Scalar.ZeroSigned W] [Scalar N] [Color.Rounded N]

omit [Scalar.ZeroSigned W] in
/-- Equal curves are told by their bases. -/
theorem toldBy_curve {curve other : Curve W} (equal : (curve == other) = true) :
    ToldBy curve.written other.written curve.words other.words := by
  cases curve with
  | linear =>
    cases other with
    | linear => exact .of_eq rfl
    | exponential => cases equal
  | exponential base =>
    cases other with
    | linear => cases equal
    | exponential otherBase => exact (ToldBy.number equal).after [.number 1]

/-- Equal trees are told by their bases and stops. -/
theorem Expr.toldBy (e : Expr W N) :
    ∀ f : Expr W N, e.equal f = true → ToldBy e.written f.written e.words f.words := by
  induction e using structural with
  | literal value =>
    intro f equal
    cases f <;> simp only [Expr.equal, Bool.false_eq_true] at equal
    case literal other => exact .of_eq (congrArg (Word.number 0 :: ·) (Value.words_eq equal))
  | property | input | external =>
    intro f equal
    cases f <;> simp only [Expr.equal, Bool.false_eq_true, Bool.and_eq_true, beq_iff_eq] at equal
    obtain ⟨rfl, rfl⟩ := equal
    exact .of_eq rfl
  | operator op args type ih =>
    intro f equal
    cases f <;> simp only [Expr.equal, Bool.false_eq_true, Bool.and_eq_true, beq_iff_eq] at equal
    case operator otherOp otherArgs otherType =>
      obtain ⟨⟨rfl, equalArgs⟩, rfl⟩ := equal
      rw [equalAll_eq] at equalArgs
      have pairs := forall₂_of_isEqv equalArgs
      have told := ToldBy.flatMap ((List.forall₂_and_left _ _).2 ⟨ih, pairs⟩ |>.imp
        fun arg other both => both.1 other both.2)
      simp only [written, words, writtenOfAll_eq, wordsOfAll_eq, pairs.length_eq]
      exact told.after [.number 3, op.word, type.word, .number otherArgs.length]
  | interpolate curve x stops type ihInput ihStops =>
    intro f equal
    cases f <;> simp only [Expr.equal, Bool.false_eq_true, Bool.and_eq_true, beq_iff_eq] at equal
    case interpolate otherCurve otherX otherStops otherType =>
      obtain ⟨⟨⟨equalCurve, equalInput⟩, equalStops⟩, rfl⟩ := equal
      rw [equalStops_eq] at equalStops
      have pairs := forall₂_of_isEqv equalStops
      simp only [Bool.and_eq_true] at pairs
      have told := ToldBy.flatMap ((List.forall₂_and_left _ _).2 ⟨ihStops, pairs⟩ |>.imp
        fun stop other both => (ToldBy.number both.2.1).append (both.1 other.2 both.2.2))
      simp only [written, words, writtenOfStops_eq, wordsOfStops_eq, pairs.length_eq]
      -- In the order of the digest: the curve, the input, and the stops behind their number.
      have inputAndStops := (ihInput otherX equalInput).append
        (told.after [.number otherStops.length])
      have all := (toldBy_curve equalCurve).append (inputAndStops.after [type.word])
      simpa only [List.append_assoc, List.cons_append, List.nil_append] using all.after [.number 4]
  | case branches fallback type ihBranches ihFallback =>
    intro f equal
    cases f <;> simp only [Expr.equal, Bool.false_eq_true, Bool.and_eq_true, beq_iff_eq] at equal
    case case otherBranches otherFallback otherType =>
      obtain ⟨⟨equalBranches, equalFallback⟩, rfl⟩ := equal
      rw [equalBranches_eq] at equalBranches
      have pairs := forall₂_of_isEqv equalBranches
      simp only [Bool.and_eq_true] at pairs
      have told := ToldBy.flatMap ((List.forall₂_and_left _ _).2 ⟨ihBranches, pairs⟩ |>.imp
        fun branch other both => (both.1.1 other.1 both.2.1).append (both.1.2 other.2 both.2.2))
      simp only [written, words, writtenOfBranches_eq, wordsOfBranches_eq, pairs.length_eq]
      have all := told.append (ihFallback otherFallback equalFallback)
      simpa only [List.append_assoc] using
        all.after [.number 5, type.word, .number otherBranches.length]

end MapStyle
