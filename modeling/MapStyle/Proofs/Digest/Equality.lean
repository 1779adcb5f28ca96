import Mathlib.Data.List.Forall2
import MapStyle.Proofs.Digest.Words
import MapStyle.Proofs.Number.Zeros

/-!
# What tells equal parts apart

Numbers are compared as numbers, so parts may be equal that have zeros of different signs. A
digest takes some numbers with one zero for both, and others by their bit patterns: those tell
equal parts apart, and nothing else does. `ToldBy` is that property of two parts, and the lemmas
put parts together.
-/

namespace MapStyle

variable {W N α β : Type}

/-- Lists that are compared item by item are equal item by item. -/
theorem forall₂_of_isEqv {equal : α → α → Bool} {xs ys : List α}
    (same : xs.isEqv ys equal = true) : List.Forall₂ (fun x y => equal x y = true) xs ys := by
  induction xs generalizing ys with
  | nil =>
    cases ys with
    | nil => exact .nil
    | cons => cases same
  | cons x xs ih =>
    cases ys with
    | nil => cases same
    | cons y ys =>
      rw [List.isEqv, Bool.and_eq_true] at same
      exact .cons same.1 (ih same.2)

theorem forall₂_of_beq [BEq α] {xs ys : List α} (same : (xs == ys) = true) :
    List.Forall₂ (fun x y => (x == y) = true) xs ys :=
  forall₂_of_isEqv (List.beq_eq_isEqv.symm.trans same)

/-- The words of two equal parts have one length, and the numbers that tell the parts are equal in
pairs. The words are the same exactly when these numbers are. -/
structure ToldBy [BEq W] (numbers others : List W) (words otherWords : List Word) : Prop where
  equal : List.Forall₂ (fun a b => (a == b) = true) numbers others
  length : words.length = otherWords.length
  same : words = otherWords ↔ numbers = others

namespace ToldBy

section

variable [BEq W] {numbers others : List W} {words otherWords : List Word}

/-- The same words, which no number tells. -/
theorem of_eq (same : words = otherWords) : ToldBy ([] : List W) [] words otherWords :=
  ⟨.nil, congrArg List.length same, iff_of_true same rfl⟩

theorem append {numbers' others' : List W} {words' otherWords' : List Word}
    (first : ToldBy numbers others words otherWords)
    (second : ToldBy numbers' others' words' otherWords') :
    ToldBy (numbers ++ numbers') (others ++ others') (words ++ words')
      (otherWords ++ otherWords') where
  equal := List.rel_append first.equal second.equal
  length := by rw [List.length_append, List.length_append, first.length, second.length]
  same := by
    -- The first parts have one length, in words and in numbers, so both come apart in one place.
    constructor
    · intro same
      obtain ⟨left, right⟩ := List.append_inj same first.length
      rw [first.same.1 left, second.same.1 right]
    · intro same
      obtain ⟨left, right⟩ := List.append_inj same first.equal.length_eq
      rw [first.same.2 left, second.same.2 right]

/-- Parts after the same words. -/
theorem after (head : List Word) (rest : ToldBy numbers others words otherWords) :
    ToldBy numbers others (head ++ words) (head ++ otherWords) :=
  (of_eq rfl).append rest

/-- Parts one after another. -/
theorem flatMap {xs : List α} {ys : List β} {numbersOf : α → List W} {othersOf : β → List W}
    {wordsOf : α → List Word} {otherWordsOf : β → List Word}
    (each : List.Forall₂ (fun x y => ToldBy (numbersOf x) (othersOf y) (wordsOf x) (otherWordsOf y))
      xs ys) :
    ToldBy (xs.flatMap numbersOf) (ys.flatMap othersOf) (xs.flatMap wordsOf)
      (ys.flatMap otherWordsOf) := by
  induction each with
  | nil => exact of_eq rfl
  | cons first _ ih =>
    simp only [List.flatMap_cons]
    exact first.append ih

/-- Parts under equal names, one after another. -/
theorem named [BEq α] [LawfulBEq α] [BEq β] (nameWords : α → List Word) {numbersOf : β → List W}
    {wordsOf : β → List Word}
    (told : ∀ x y, (x == y) = true → ToldBy (numbersOf x) (numbersOf y) (wordsOf x) (wordsOf y))
    {entries otherEntries : List (α × β)} (same : (entries == otherEntries) = true) :
    ToldBy (entries.flatMap fun entry => numbersOf entry.2)
      (otherEntries.flatMap fun entry => numbersOf entry.2)
      (entries.flatMap fun entry => nameWords entry.1 ++ wordsOf entry.2)
      (otherEntries.flatMap fun entry => nameWords entry.1 ++ wordsOf entry.2) := by
  refine flatMap ((forall₂_of_beq same).imp ?_)
  rintro ⟨name, x⟩ ⟨otherName, y⟩ same
  obtain ⟨sameName, equal⟩ := Bool.and_eq_true_iff.1 same
  rw [beq_iff_eq.1 sameName]
  exact (told x y equal).after (nameWords otherName)

end

variable [Scalar W] [Scalar.Coded W]

/-- A number by its bit pattern. -/
theorem number {a b : W} (equal : (a == b) = true) :
    ToldBy [a] [b] [.number (Scalar.code a)] [.number (Scalar.code b)] where
  equal := .cons equal .nil
  length := rfl
  same := by rw [List.singleton_inj, List.singleton_inj, code_inj]

end ToldBy

/-! ## Values -/

section

variable [Scalar W] [Scalar.ZeroSigned W]

/-- Equal numbers have one word, the zeros among them too. -/
theorem numberWord_eq {a b : W} (equal : (a == b) = true) :
    Value.numberWord a = Value.numberWord b := by
  rcases Scalar.ZeroSigned.eq_or_zeros equal with same | ⟨first, second⟩
  · rw [same]
  · rw [Value.numberWord, Value.numberWord, if_pos first, if_pos second]

theorem map_numberWord_eq {items others : List W}
    (equal : List.Forall₂ (fun a b => (a == b) = true) items others) :
    items.map Value.numberWord = others.map Value.numberWord := by
  induction equal with
  | nil => rfl
  | cons first _ ih => rw [List.map_cons, List.map_cons, numberWord_eq first, ih]

/-- Equal numbers of which none is zero are the same. -/
theorem eq_of_nonzero {numbers others : List W}
    (equal : List.Forall₂ (fun a b => (a == b) = true) numbers others)
    (nonzero : ∀ n ∈ numbers, (n == Scalar.zero) = false) : numbers = others := by
  induction equal with
  | nil => rfl
  | cons first _ ih =>
    obtain ⟨notZero, rest⟩ := List.forall_mem_cons.1 nonzero
    rcases Scalar.ZeroSigned.eq_or_zeros first with same | ⟨isZero, -⟩
    · rw [same, ih rest]
    · rw [isZero] at notZero
      cases notZero

variable [Scalar N] [Color.Rounded N]

theorem Color.bytes_eq {c d : Color N} (equal : (c == d) = true) : c.bytes = d.bytes := by
  have channels : (c.red == d.red && c.green == d.green && c.blue == d.blue &&
      c.alpha == d.alpha) = true := equal
  simp only [Bool.and_eq_true] at channels
  obtain ⟨⟨⟨red, green⟩, blue⟩, alpha⟩ := channels
  simp only [Color.bytes, Color.channels, List.map_cons, List.map_nil,
    Color.Rounded.toByte_eq red, Color.Rounded.toByte_eq green, Color.Rounded.toByte_eq blue,
    Color.Rounded.toByte_eq alpha]

/-- Equal values have the same words. -/
theorem Value.words_eq {u v : Value W N} (equal : (u == v) = true) : u.words = v.words := by
  change u.equal v = true at equal
  cases u <;> cases v <;> simp only [Value.equal, Bool.false_eq_true] at equal
  case boolean.boolean a b => rw [beq_iff_eq.1 equal]
  case number.number a b => rw [words, words, numberWord_eq equal]
  case string.string a b => rw [beq_iff_eq.1 equal]
  case numberArray.numberArray items others =>
    have pairs := forall₂_of_beq equal
    rw [words, words, map_numberWord_eq pairs, pairs.length_eq]
  case color.color c d => rw [words, words, Color.bytes_eq equal]

end

/-! ## Declarations -/

/-- The ends of the range of a declaration. -/
def Declaration.written (d : Declaration W) : List W := d.minimum.toList ++ d.maximum.toList

variable [Scalar W] [Scalar.Coded W]

theorem toldBy_bound {bound other : Option W} (equal : (bound == other) = true) :
    ToldBy bound.toList other.toList (Declaration.boundWords bound)
      (Declaration.boundWords other) := by
  cases bound with
  | none =>
    cases other with
    | none => exact .of_eq rfl
    | some => cases equal
  | some a =>
    cases other with
    | none => cases equal
    | some b => exact (ToldBy.number equal).after [.number 1]

/-- Equal declarations are told by the ends of their ranges. -/
theorem toldBy_declaration {d e : Declaration W} (equal : (d == e) = true) :
    ToldBy d.written e.written d.words e.words := by
  have parts : (d.type == e.type && d.minimum == e.minimum && d.maximum == e.maximum) = true :=
    equal
  simp only [Bool.and_eq_true] at parts
  obtain ⟨⟨type, minimum⟩, maximum⟩ := parts
  rw [Declaration.words, Declaration.words, beq_iff_eq.1 type]
  exact ((toldBy_bound minimum).append (toldBy_bound maximum)).after [e.type.word]

end MapStyle
