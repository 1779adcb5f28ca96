import Mathlib.Data.List.Forall2
import MapStyle.Digest
import MapStyle.Proofs.Number.Order
import MapStyle.Schema

/-!
# Words are read in one way

What a style contributes to its digest is a sequence of words without brackets. It can be taken
apart again because every part says where it ends: `Readable` is that property of one part,
with whatever follows it. A part may be written in a coarser form than it has, and then it is
that form which is read.
-/

namespace MapStyle

variable {α β γ δ : Type}

/-- Where the items of two lists come to the same one by one, what follows of two such items holds
throughout. -/
theorem forall₂_of_map_eq {f : α → γ} {g : β → γ} {related : α → β → Prop} {xs : List α}
    {ys : List β} (same : xs.map f = ys.map g)
    (each : ∀ x ∈ xs, ∀ y ∈ ys, f x = g y → related x y) : List.Forall₂ related xs ys := by
  induction xs generalizing ys with
  | nil =>
    rw [List.map_nil, eq_comm, List.map_eq_nil_iff] at same
    rw [same]
    exact .nil
  | cons x xs ih =>
    cases ys with
    | nil => cases same
    | cons y ys =>
      obtain ⟨first, rest⟩ := List.cons.inj same
      refine .cons (each x List.mem_cons_self y List.mem_cons_self first) (ih rest ?_)
      intro x inXs y inYs
      exact each x (List.mem_cons_of_mem _ inXs) y (List.mem_cons_of_mem _ inYs)

/-- A function that tells the items of one list from those of another tells the lists. -/
theorem eq_of_map_eq {f : α → β} {xs ys : List α} (same : xs.map f = ys.map f)
    (each : ∀ x ∈ xs, ∀ y ∈ ys, f x = f y → x = y) : xs = ys :=
  List.forall₂_eq_eq_eq ▸ forall₂_of_map_eq same each

/-- The words of a part say what its form is and where they end. -/
def Readable (words : α → List Word) (form : α → β) (x : α) : Prop :=
  ∀ y r s, words x ++ r = words y ++ s → form x = form y ∧ r = s

namespace Readable

variable {words : α → List Word} {form : α → β} {other : γ → List Word} {otherForm : γ → δ}

/-- Parts one after another. -/
theorem pair {x : α} {y : γ} (first : Readable words form x) (second : Readable other otherForm y) :
    Readable (fun both : α × γ => words both.1 ++ other both.2)
      (fun both => (form both.1, otherForm both.2)) (x, y) := by
  rintro ⟨x', y'⟩ r s same
  simp only [List.append_assoc] at same
  obtain ⟨sameFirst, rest⟩ := first x' _ _ same
  obtain ⟨sameSecond, rest⟩ := second y' _ _ rest
  exact ⟨Prod.ext sameFirst sameSecond, rest⟩

/-- As many parts on both sides. -/
theorem all {xs ys : List α} {r s : List Word} (each : ∀ x ∈ xs, Readable words form x)
    (count : xs.length = ys.length) (same : xs.flatMap words ++ r = ys.flatMap words ++ s) :
    xs.map form = ys.map form ∧ r = s := by
  induction xs generalizing ys with
  | nil =>
    rw [List.length_nil, eq_comm, List.length_eq_zero_iff] at count
    subst count
    exact ⟨rfl, same⟩
  | cons x xs ih =>
    cases ys with
    | nil => cases count
    | cons y ys =>
      obtain ⟨first, rest⟩ := List.forall_mem_cons.1 each
      simp only [List.flatMap_cons, List.append_assoc] at same
      obtain ⟨sameFirst, same⟩ := first y _ _ same
      obtain ⟨sameRest, same⟩ := ih rest (Nat.succ.inj count) same
      exact ⟨by rw [List.map_cons, List.map_cons, sameFirst, sameRest], same⟩

/-- A list with its length ahead of it. -/
theorem counted {xs : List α} (each : ∀ x ∈ xs, Readable words form x) :
    Readable (fun xs : List α => .number xs.length :: xs.flatMap words) (List.map form) xs := by
  intro ys r s same
  obtain ⟨count, same⟩ := List.cons.inj same
  exact all each (Word.number.inj count) same

/-- A part of one word. -/
theorem single {word : α → Word} {x : α} (told : ∀ y, word x = word y → form x = form y) :
    Readable (fun x => [word x]) form x := by
  intro y r s same
  obtain ⟨head, rest⟩ := List.cons.inj same
  exact ⟨told y head, rest⟩

end Readable

/-! ## Texts and types -/

theorem readable_string (s : String) : Readable Word.ofString id s := by
  intro t r rest same
  simp only [Word.ofString, List.cons_append, List.nil_append, List.cons.injEq,
    Word.bytes.injEq, true_and] at same
  obtain ⟨bytes, rest⟩ := same
  refine ⟨String.toByteArray_inj.1 (ByteArray.ext (Array.toList_inj.1 ?_)), rest⟩
  simpa using bytes

theorem ValueType.word_injective {s t : ValueType} (same : s.word = t.word) : s = t := by
  revert same
  cases s <;> cases t <;> decide

theorem readable_type (type : ValueType) : Readable (fun type => [type.word]) id type :=
  .single fun _ => ValueType.word_injective

/-! ## Numbers -/

/-- A number is told by its bit pattern, and zero has the pattern zero. -/
class Scalar.Coded (α : Type) [Scalar α] : Prop where
  code_injective {a b : α} : Scalar.code a = Scalar.code b → a = b
  code_zero : Scalar.code (Scalar.zero : α) = 0
  zero_equal : ((Scalar.zero : α) == Scalar.zero) = true

instance : Scalar.Coded Double where
  code_injective := Binary.eq_of_code
  code_zero := by decide
  zero_equal := by decide

/-- A channel at one of the 256 steps between zero and one is the byte of that step. -/
class Color.Stepped (N : Type) [Scalar N] : Prop where
  toByte_step : ∀ byte < 256, Color.toByte ((Scalar.ofNat byte : N) / Scalar.ofNat 255) = byte

instance : Color.Stepped Single where
  toByte_step := by decide +kernel

variable {W : Type} [Scalar W] [Scalar.Coded W]

theorem code_inj {a b : W} : (Word.number (Scalar.code a) = .number (Scalar.code b)) ↔ a = b :=
  ⟨fun same => Scalar.Coded.code_injective (Word.number.inj same), fun same => same ▸ rfl⟩

/-! ## Declarations -/

theorem readable_bound (bound : Option W) : Readable Declaration.boundWords id bound := by
  intro other r s same
  cases bound with
  | none =>
    cases other with
    | none => exact ⟨rfl, (List.cons.inj same).2⟩
    | some b => cases (List.cons.inj same).1
  | some a =>
    cases other with
    | none => cases (List.cons.inj same).1
    | some b =>
      obtain ⟨code, rest⟩ := List.cons.inj (List.cons.inj same).2
      exact ⟨congrArg some (code_inj.1 code), rest⟩

theorem readable_declaration (d : Declaration W) : Readable Declaration.words id d := by
  intro e r s same
  simp only [Declaration.words, List.cons_append, List.append_assoc, List.cons.injEq] at same
  obtain ⟨type, same⟩ := same
  obtain ⟨minimum, same⟩ := readable_bound d.minimum _ _ _ same
  obtain ⟨maximum, same⟩ := readable_bound d.maximum _ _ _ same
  refine ⟨?_, same⟩
  obtain ⟨type', minimum', maximum'⟩ := e
  obtain rfl := ValueType.word_injective type
  obtain rfl : d.minimum = minimum' := minimum
  obtain rfl : d.maximum = maximum' := maximum
  rfl

end MapStyle
