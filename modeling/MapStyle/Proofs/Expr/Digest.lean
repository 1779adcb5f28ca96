import MapStyle.Proofs.Digest.Words
import MapStyle.Proofs.Expr.Canonical

/-!
# The digest of an expression

The words of a tree say what its canonical form is and where they end. Nothing but the literals
is taken in a coarser form: stops, bases, names and types are read off the words as they are.
-/

namespace MapStyle

variable {W N : Type} [Scalar W] [Scalar N]

theorem readable_input (source : FrameInput) : Readable FrameInput.words id source := by
  intro other r s same
  cases source with
  | styleVariable name =>
    cases other with
    | styleVariable otherName =>
      obtain ⟨sameName, rest⟩ := readable_string name _ _ _ (List.cons.inj same).2
      exact ⟨congrArg FrameInput.styleVariable sameName, rest⟩
    | _ => cases (List.cons.inj same).1
  | zoom =>
    cases other with
    | zoom => exact ⟨rfl, (List.cons.inj same).2⟩
    | _ => cases (List.cons.inj same).1
  | resolution =>
    cases other with
    | resolution => exact ⟨rfl, (List.cons.inj same).2⟩
    | _ => cases (List.cons.inj same).1
  | time =>
    cases other with
    | time => exact ⟨rfl, (List.cons.inj same).2⟩
    | _ => cases (List.cons.inj same).1

theorem Operator.word_injective {op other : Operator} (same : op.word = other.word) :
    op = other := by
  revert same
  cases op <;> cases other <;> decide

namespace Expr

attribute [local simp] words wordsOfAll wordsOfStops wordsOfBranches

theorem wordsOfAll_eq (args : List (Expr W N)) : wordsOfAll args = args.flatMap words := by
  induction args with
  | nil => rfl
  | cons arg rest ih => rw [wordsOfAll, ih, List.flatMap_cons]

theorem wordsOfStops_eq (stops : List (W × Expr W N)) :
    wordsOfStops stops =
      stops.flatMap fun stop => [.number (Scalar.code stop.1)] ++ stop.2.words := by
  induction stops with
  | nil => rfl
  | cons stop rest ih =>
    rw [wordsOfStops, ih, List.flatMap_cons]
    rfl

theorem wordsOfBranches_eq (branches : List (Expr W N × Expr W N)) :
    wordsOfBranches branches = branches.flatMap fun branch => branch.1.words ++ branch.2.words := by
  induction branches with
  | nil => rfl
  | cons branch rest ih => rw [wordsOfBranches, ih, List.flatMap_cons]

end Expr

variable [Scalar.Coded W]

theorem readable_curve (curve : Curve W) : Readable Curve.words id curve := by
  intro other r s same
  cases curve with
  | linear =>
    cases other with
    | linear => exact ⟨rfl, (List.cons.inj same).2⟩
    | exponential base => cases (List.cons.inj same).1
  | exponential base =>
    cases other with
    | linear => cases (List.cons.inj same).1
    | exponential otherBase =>
      obtain ⟨code, rest⟩ := List.cons.inj (List.cons.inj same).2
      exact ⟨congrArg Curve.exponential (code_inj.1 code), rest⟩

theorem readable_stop (stop : W) :
    Readable (fun stop : W => [.number (Scalar.code stop)]) id stop :=
  .single fun _ => code_inj.1

/-! ## Values -/

/-- The word of a number tells it, up to the sign of zero. -/
theorem canonical_of_numberWord {a b : W} (same : Value.numberWord a = Value.numberWord b) :
    Scalar.canonical a = Scalar.canonical b := by
  have code := Word.number.inj same
  have zero (n : W) (isZero : Scalar.code n = 0) : (n == Scalar.zero) = true := by
    rw [Scalar.Coded.code_injective (isZero.trans Scalar.Coded.code_zero.symm)]
    exact Scalar.Coded.zero_equal
  unfold Scalar.canonical
  by_cases first : (a == Scalar.zero) = true
  · rw [if_pos first] at code
    by_cases second : (b == Scalar.zero) = true
    · rw [if_pos first, if_pos second]
    · rw [if_neg second] at code
      exact absurd (zero b code.symm) second
  · rw [if_neg first] at code
    by_cases second : (b == Scalar.zero) = true
    · rw [if_pos second] at code
      exact absurd (zero a code) first
    · rw [if_neg second] at code
      rw [if_neg first, if_neg second]
      exact Scalar.Coded.code_injective code

theorem readable_number (n : W) :
    Readable (fun n => [Value.numberWord n]) Scalar.canonical n :=
  .single fun _ => canonical_of_numberWord

theorem canonical_of_bytes {c d : Color N}
    (same : c.bytes.map UInt8.ofNat = d.bytes.map UInt8.ofNat) : c.canonical = d.canonical := by
  simp only [Color.bytes, Color.channels, List.map_cons, List.map_nil, List.cons.injEq,
    and_true] at same
  obtain ⟨red, green, blue, alpha⟩ := same
  simp only [Color.canonical, red, green, blue, alpha]

/-- The words of a value tell its canonical form. -/
theorem readable_value (value : Value W N) : Readable Value.words Value.canonical value := by
  intro other r s same
  cases value with
  | boolean b =>
    cases other with
    | boolean d =>
      obtain ⟨bit, rest⟩ := List.cons.inj (List.cons.inj same).2
      have truth : b = d := by
        cases b <;> cases d
        · rfl
        · cases bit
        · cases bit
        · rfl
      exact ⟨congrArg Value.boolean truth, rest⟩
    | _ => cases (List.cons.inj same).1
  | number n =>
    cases other with
    | number m =>
      obtain ⟨number, rest⟩ := readable_number n m _ _ (List.cons.inj same).2
      exact ⟨congrArg Value.number number, rest⟩
    | _ => cases (List.cons.inj same).1
  | string text =>
    cases other with
    | string other =>
      obtain ⟨text, rest⟩ := readable_string text other _ _ (List.cons.inj same).2
      exact ⟨congrArg Value.string text, rest⟩
    | _ => cases (List.cons.inj same).1
  | numberArray items =>
    cases other with
    | numberArray others =>
      simp only [Value.words, List.cons_append, List.cons.injEq, true_and] at same
      obtain ⟨count, same⟩ := same
      simp only [← List.flatMap_pure_eq_map] at same
      obtain ⟨numbers, rest⟩ := Readable.all (fun item _ => readable_number item)
        (Word.number.inj count) same
      exact ⟨congrArg Value.numberArray numbers, rest⟩
    | _ => cases (List.cons.inj same).1
  | color c =>
    cases other with
    | color d =>
      obtain ⟨bytes, rest⟩ := List.cons.inj (List.cons.inj (List.cons.inj same).2).2
      exact ⟨congrArg Value.color (canonical_of_bytes (Word.bytes.inj bytes)), rest⟩
    | _ => cases (List.cons.inj same).1

/-- The words of a value are those of its canonical form. -/
theorem Value.words_canonical [Color.Stepped N] (value : Value W N) :
    value.canonical.words = value.words := by
  have number (n : W) : numberWord (Scalar.canonical n) = numberWord n := by
    unfold numberWord Scalar.canonical
    by_cases zero : (n == Scalar.zero) = true
    · rw [if_pos zero, if_pos zero, if_pos Scalar.Coded.zero_equal]
    · rw [if_neg zero, if_neg zero]
  cases value with
  | boolean => rfl
  | number n => rw [canonical, words, words, number]
  | string => rfl
  | numberArray items =>
    have items' : (items.map Scalar.canonical).map numberWord = items.map numberWord := by
      rw [List.map_map]
      exact List.map_congr_left fun item _ => number item
    rw [canonical, words, words, items', List.length_map]
  | color c =>
    have step (byte : UInt8) :
        Color.toByte ((Scalar.ofNat byte.toNat : N) / Scalar.ofNat 255) = byte.toNat :=
      Color.Stepped.toByte_step byte.toNat byte.toNat_lt
    simp only [canonical, words, Color.canonical, Color.ofBytes, Color.bytes, Color.channels,
      List.map_cons, List.map_nil, step, UInt8.ofNat_toNat]

/-- Different values of the lists have different words. -/
def Value.Apart (first second : List (Value W N)) : Prop :=
  ∀ u ∈ first, ∀ v ∈ second, u.words = v.words → u = v

theorem Value.Apart.eq_of_canonical [Color.Stepped N] {first second : List (Value W N)}
    (apart : Value.Apart first second) {u v : Value W N} (mem : u ∈ first) (mem' : v ∈ second)
    (same : u.canonical = v.canonical) : u = v := by
  refine apart u mem v mem' ?_
  rw [← u.words_canonical, same, v.words_canonical]

/-! ## Trees -/

namespace Expr

/-- The words of a tree tell its canonical form. -/
theorem readable (e : Expr W N) : Readable words canonical e := by
  induction e using structural with
  | literal value =>
    intro other r s same
    cases other with
    | literal otherValue =>
      obtain ⟨literal, rest⟩ := readable_value value otherValue _ _ (List.cons.inj same).2
      exact ⟨congrArg Expr.literal literal, rest⟩
    | _ => cases (List.cons.inj same).1
  | property name type =>
    intro other r s same
    cases other with
    | property otherName otherType =>
      simp only [words, List.cons_append, List.append_assoc, List.cons.injEq, true_and] at same
      obtain ⟨name, same⟩ := readable_string name otherName _ _ same
      obtain ⟨type, rest⟩ := readable_type type otherType _ _ same
      exact ⟨congrArg₂ Expr.property name type, rest⟩
    | _ => cases (List.cons.inj same).1
  | input source type =>
    intro other r s same
    cases other with
    | input otherSource otherType =>
      simp only [words, List.cons_append, List.append_assoc, List.cons.injEq, true_and] at same
      obtain ⟨source, same⟩ := readable_input source otherSource _ _ same
      obtain ⟨type, rest⟩ := readable_type type otherType _ _ same
      exact ⟨congrArg₂ Expr.input source type, rest⟩
    | _ => cases (List.cons.inj same).1
  | operator op args type ih =>
    intro other r s same
    cases other with
    | operator otherOp otherArgs otherType =>
      simp only [words, wordsOfAll_eq, List.cons_append, List.nil_append, List.cons.injEq,
        true_and] at same
      obtain ⟨op, type, count, same⟩ := same
      obtain ⟨args, rest⟩ := Readable.all ih (Word.number.inj count) same
      refine ⟨?_, rest⟩
      rw [canonical, canonical, canonicalAll_eq, canonicalAll_eq, args,
        Operator.word_injective op, ValueType.word_injective type]
    | _ => cases (List.cons.inj same).1
  | interpolate curve x stops type ihInput ihStops =>
    intro other r s same
    cases other with
    | interpolate otherCurve otherX otherStops otherType =>
      simp only [words, wordsOfStops_eq, List.cons_append, List.append_assoc, List.cons.injEq,
        true_and] at same
      obtain ⟨curve, same⟩ := readable_curve curve otherCurve _ _ same
      obtain ⟨type, same⟩ := List.cons.inj same
      obtain ⟨input, same⟩ := ihInput otherX _ _ same
      obtain ⟨count, same⟩ := List.cons.inj same
      have each (stop : W × Expr W N) (member : stop ∈ stops) :=
        (readable_stop stop.1).pair (ihStops stop member)
      obtain ⟨stops, rest⟩ := Readable.all each (Word.number.inj count) same
      refine ⟨?_, rest⟩
      simp only [id_eq] at curve stops
      rw [canonical, canonical, canonicalStops_eq, canonicalStops_eq, curve, input, stops,
        ValueType.word_injective type]
    | _ => cases (List.cons.inj same).1
  | case branches fallback type ihBranches ihFallback =>
    intro other r s same
    cases other with
    | case otherBranches otherFallback otherType =>
      simp only [words, wordsOfBranches_eq, List.cons_append, List.nil_append, List.append_assoc,
        List.cons.injEq, true_and] at same
      obtain ⟨type, count, same⟩ := same
      have each (branch : Expr W N × Expr W N) (member : branch ∈ branches) :=
        (ihBranches branch member).1.pair (ihBranches branch member).2
      obtain ⟨branches, same⟩ := Readable.all each (Word.number.inj count) same
      obtain ⟨fallback, rest⟩ := ihFallback otherFallback _ _ same
      refine ⟨?_, rest⟩
      rw [canonical, canonical, canonicalBranches_eq, canonicalBranches_eq, branches, fallback,
        ValueType.word_injective type]
    | _ => cases (List.cons.inj same).1
  | external id type =>
    intro other r s same
    cases other with
    | external otherId otherType =>
      obtain ⟨id, same⟩ := List.cons.inj (List.cons.inj same).2
      obtain ⟨type, rest⟩ := readable_type type otherType _ _ same
      exact ⟨congrArg₂ Expr.external (Word.number.inj id) type, rest⟩
    | _ => cases (List.cons.inj same).1

/-- The words of a tree are those of its canonical form. -/
theorem words_canonical [Color.Stepped N] (e : Expr W N) : e.canonical.words = e.words := by
  induction e using structural with
  | literal value => rw [canonical, words, words, value.words_canonical]
  | property | input | external => rfl
  | operator op args type ih =>
    have below : (args.flatMap fun arg => arg.canonical.words) = args.flatMap words :=
      List.flatMap_congr ih
    simp only [canonical, words, canonicalAll_eq, wordsOfAll_eq, List.length_map, List.flatMap_map,
      below]
  | interpolate curve x stops type ihInput ihStops =>
    have below : (stops.flatMap fun stop =>
        [.number (Scalar.code stop.1)] ++ stop.2.canonical.words) =
          stops.flatMap fun stop => [.number (Scalar.code stop.1)] ++ stop.2.words :=
      List.flatMap_congr fun stop member => by rw [ihStops stop member]
    simp only [canonical, words, canonicalStops_eq, wordsOfStops_eq, List.length_map,
      List.flatMap_map, ihInput, below]
  | case branches fallback type ihBranches ihFallback =>
    have below : (branches.flatMap fun branch =>
        branch.1.canonical.words ++ branch.2.canonical.words) =
          branches.flatMap fun branch => branch.1.words ++ branch.2.words := by
      refine List.flatMap_congr fun branch member => ?_
      rw [(ihBranches branch member).1, (ihBranches branch member).2]
    simp only [canonical, words, canonicalBranches_eq, wordsOfBranches_eq, List.length_map,
      List.flatMap_map, ihFallback, below]

/-! ## Trees with one canonical form -/

/-- A node that is a literal is one of some values. -/
def LiteralIn (values : List (Value W N)) (node : Expr W N) : Prop :=
  ∀ value, node.literal? = some value → value ∈ values

/-- Trees with one canonical form are the same when their literals are told apart. -/
theorem eq_of_canonical [Color.Stepped N] {first second : List (Value W N)}
    (apart : Value.Apart first second) (e : Expr W N) :
    ∀ f : Expr W N, (∀ node ∈ e.nodes, node.LiteralIn first) →
      (∀ node ∈ f.nodes, node.LiteralIn second) → e.canonical = f.canonical → e = f := by
  induction e using structural with
  | literal value =>
    intro f inFirst inSecond same
    cases f with
    | literal other =>
      have known := inFirst _ (mem_nodes_self _) value rfl
      have known' := inSecond _ (mem_nodes_self _) other rfl
      rw [apart.eq_of_canonical known known' (Expr.literal.inj same)]
    | _ => cases same
  | property | input | external =>
    intro f _ _ same
    cases f <;> first | exact same | cases same
  | operator op args type ih =>
    intro f inFirst inSecond same
    cases f with
    | operator op' args' type' =>
      simp only [canonical, canonicalAll_eq, operator.injEq] at same
      obtain ⟨rfl, sameArgs, rfl⟩ := same
      rw [forall_nodes_operator] at inFirst inSecond
      have args_eq : args = args' := eq_of_map_eq sameArgs fun arg member arg' member' =>
        ih arg member arg' (inFirst.2 arg member) (inSecond.2 arg' member')
      rw [args_eq]
    | _ => cases same
  | interpolate curve x stops type ihInput ihStops =>
    intro f inFirst inSecond same
    cases f with
    | interpolate curve' x' stops' type' =>
      simp only [canonical, canonicalStops_eq, interpolate.injEq] at same
      obtain ⟨rfl, sameInput, sameStops, rfl⟩ := same
      rw [forall_nodes_interpolate] at inFirst inSecond
      have x_eq : x = x' := ihInput x' inFirst.2.1 inSecond.2.1 sameInput
      have stops_eq : stops = stops' := by
        refine eq_of_map_eq sameStops fun stop member stop' member' sameStop => ?_
        obtain ⟨at_eq, output⟩ := Prod.mk.inj sameStop
        exact Prod.ext at_eq (ihStops stop member stop'.2 (inFirst.2.2 stop member)
          (inSecond.2.2 stop' member') output)
      rw [x_eq, stops_eq]
    | _ => cases same
  | case branches fallback type ihBranches ihFallback =>
    intro f inFirst inSecond same
    cases f with
    | case branches' fallback' type' =>
      simp only [canonical, canonicalBranches_eq, case.injEq] at same
      obtain ⟨sameBranches, sameFallback, rfl⟩ := same
      rw [forall_nodes_case] at inFirst inSecond
      have fallback_eq : fallback = fallback' :=
        ihFallback fallback' inFirst.2.2 inSecond.2.2 sameFallback
      have branches_eq : branches = branches' := by
        refine eq_of_map_eq sameBranches fun branch member branch' member' sameBranch => ?_
        obtain ⟨condition, result⟩ := Prod.mk.inj sameBranch
        obtain ⟨inCondition, inResult⟩ := inFirst.2.1 branch member
        obtain ⟨inCondition', inResult'⟩ := inSecond.2.1 branch' member'
        exact Prod.ext
          ((ihBranches branch member).1 branch'.1 inCondition inCondition' condition)
          ((ihBranches branch member).2 branch'.2 inResult inResult' result)
      rw [fallback_eq, branches_eq]
    | _ => cases same

/-- It is enough that the literals of the two trees are told apart from each other. -/
theorem eq_of_literals_apart [Color.Stepped N] {e f : Expr W N}
    (apart : Value.Apart e.literals f.literals) (same : e.canonical = f.canonical) : e = f := by
  have ofNode (e : Expr W N) : ∀ node ∈ e.nodes, node.LiteralIn e.literals :=
    fun node member value isLiteral => List.mem_filterMap.2 ⟨node, member, isLiteral⟩
  exact e.eq_of_canonical apart f (ofNode e) (ofNode f) same

end Expr

end MapStyle
