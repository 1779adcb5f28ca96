import Mathlib.Data.List.Nodup
import Mathlib.Data.List.Perm.Subperm
import MapStyle.Packing.Identifier
import MapStyle.Proofs.Text.Runs

/-!
# Names that are free

A name gets the least numeric suffix that makes it different from all names taken. There are
more candidates than names taken and the candidates differ from one another, so the search
always ends with a free one, whatever the names look like. Whatever a name is made of, it has the
characters of an identifier, and it is one that is not reserved if it starts with a letter of its
own. A bare underscore is an identifier too, but with a suffix it becomes a reserved one, `__1`.
-/

namespace MapStyle.Identifier

open Text

/-- Numbers are told apart by their decimal texts. -/
theorem toString_injective {m n : Nat} (same : toString m = toString n) : m = n := by
  have digits : Nat.toDigits 10 m = Nat.toDigits 10 n := by
    rw [Nat.toString_eq_ofList_toDigits, Nat.toString_eq_ofList_toDigits] at same
    exact String.ofList_injective same
  rw [← Nat.ofDigitChars_ten_toDigits (n := m), digits, Nat.ofDigitChars_ten_toDigits]

theorem candidate_injective (base : String) : Function.Injective (candidate base) := by
  intro m n same
  have longer (k : Nat) : base ≠ base ++ "_" ++ toString k := by
    intro equal
    have lengths := congrArg String.length equal
    simp only [String.length_append] at lengths
    have underscore : "_".length = 1 := rfl
    omega
  unfold candidate at same
  split at same
  next first =>
    split at same
    next second => rw [first, second]
    next => exact absurd same (longer n)
  next =>
    split at same
    next => exact absurd same.symm (longer m)
    next => exact toString_injective ((String.append_right_inj _).1 same)

/-- Among one more candidates than there are names taken, one is free. -/
theorem exists_free (taken : List String) (base : String) :
    ∃ suffix ∈ List.range (taken.length + 1), candidate base suffix ∉ taken := by
  refine Classical.byContradiction fun none => ?_
  have distinct : ((List.range (taken.length + 1)).map (candidate base)).Nodup :=
    List.nodup_range.map (candidate_injective base)
  have covered : (List.range (taken.length + 1)).map (candidate base) ⊆ taken := by
    refine List.forall_mem_map.2 fun suffix member => ?_
    exact Classical.byContradiction fun outside => none ⟨suffix, member, outside⟩
  have count := (List.subperm_of_subset distinct covered).length_le
  rw [List.length_map, List.length_range] at count
  omega

/-! ## Searching -/

/-- The search for a free name goes from suffix to suffix while candidates are taken, and ends with
the first one that is not. -/
inductive Search (taken : List String) (base : String) : Nat → String → Prop
  | free {suffix : Nat} (outside : candidate base suffix ∉ taken) :
      Search taken base suffix (candidate base suffix)
  | next {suffix : Nat} {name : String} (inside : candidate base suffix ∈ taken)
      (later : Search taken base (suffix + 1) name) : Search taken base suffix name

namespace Search

variable {taken : List String} {base name : String} {suffix : Nat}

theorem not_mem (search : Search taken base suffix name) : name ∉ taken := by
  induction search with
  | free outside => exact outside
  | next _ _ ih => exact ih

theorem exists_candidate (search : Search taken base suffix name) :
    ∃ other, name = candidate base other := by
  induction search with
  | @free suffix _ => exact ⟨suffix, rfl⟩
  | next _ _ ih => exact ih

/-- The search ends with the first free one of some candidates, if there is one. -/
theorem of_find? {count : Nat} (found : ((List.range' suffix count).map (candidate base)).find?
    (!taken.contains ·) = some name) : Search taken base suffix name := by
  induction count generalizing suffix with
  | zero => cases found
  | succ count ih =>
    rw [List.range'_succ, List.map_cons, List.find?_cons] at found
    split at found
    next outside =>
      cases found
      exact .free (by simpa using outside)
    next inside => exact .next (by simpa using inside) (ih found)

end Search

/-- The search ends, whatever names are taken, and the name that is chosen is what it ends with. -/
theorem search_firstFree (taken : List String) (base : String) :
    Search taken base 0 (firstFree taken base) := by
  obtain ⟨suffix, member, outside⟩ := exists_free taken base
  have some : (((List.range (taken.length + 1)).map (candidate base)).find?
      (!taken.contains ·)).isSome = true := by
    refine List.find?_isSome.2 ⟨candidate base suffix, List.mem_map_of_mem member, ?_⟩
    simpa using outside
  obtain ⟨name, found⟩ := Option.isSome_iff_exists.1 some
  rw [firstFree, found, Option.getD_some]
  rw [List.range_eq_range'] at found
  exact .of_find? found

/-- A name that was chosen is not taken. -/
theorem firstFree_not_mem (taken : List String) (base : String) :
    firstFree taken base ∉ taken :=
  (search_firstFree taken base).not_mem

/-- A name that was chosen is one of the candidates. -/
theorem exists_firstFree_eq (taken : List String) (base : String) :
    ∃ suffix, firstFree taken base = candidate base suffix :=
  (search_firstFree taken base).exists_candidate

/-! ## Identifiers -/

/-- An identifier of the shader language: a letter or an underscore, and then letters, digits and
underscores, but not two underscores at the front, which are reserved. -/
structure Valid (name : String) : Prop where
  opens : ∃ first rest, name.toList = first :: rest ∧ (first.isAlpha = true ∨ first = '_')
  word : Run isWord name.toList
  unreserved : ¬"__".toList <+: name.toList

/-- Text that an identifier can open with: its first character is a letter. -/
structure Opening (front : String) : Prop where
  letter : front.toList.head?.any Char.isAlpha = true
  word : Run isWord front.toList

instance (front : String) : Decidable (Opening front) :=
  decidable_of_iff (front.toList.head?.any Char.isAlpha = true ∧ front.toList.all isWord = true)
    ⟨fun ⟨letter, word⟩ => ⟨letter, List.all_eq_true.1 word⟩,
      fun opening => ⟨opening.letter, List.all_eq_true.2 opening.word⟩⟩

theorem isDigit_of_isAlpha {c : Char} (letter : c.isAlpha = true) : c.isDigit = false := by
  have above : 65 ≤ c.toNat := by
    rcases Bool.or_eq_true_iff.1 letter with upper | lower
    · exact UInt32.le_iff_toNat_le.1 (of_decide_eq_true upper).1
    · have small := of_decide_eq_true (Bool.and_eq_true_iff.1 lower).1
      exact Nat.le_trans (by decide) (UInt32.le_iff_toNat_le.1 small)
  refine Bool.eq_false_iff.2 fun digit => ?_
  have below : c.toNat ≤ 57 :=
    UInt32.le_iff_toNat_le.1 (of_decide_eq_true (Bool.and_eq_true_iff.1 digit).2)
  omega

theorem ne_underscore_of_isAlpha {c : Char} (letter : c.isAlpha = true) : c ≠ '_' := by
  rintro rfl
  exact absurd letter (by decide)

theorem Opening.exists_cons {front : String} (opening : Opening front) :
    ∃ first rest, front.toList = first :: rest ∧ first.isAlpha = true := by
  have letter := opening.letter
  cases chars : front.toList with
  | nil =>
    rw [chars] at letter
    cases letter
  | cons first rest =>
    rw [chars] at letter
    exact ⟨first, rest, rfl, letter⟩

theorem Opening.valid {front name : String} (opening : Opening front)
    (starts : front.toList <+: name.toList) (word : Run isWord name.toList) : Valid name := by
  obtain ⟨first, rest, chars, letter⟩ := opening.exists_cons
  obtain ⟨more, whole⟩ := starts
  rw [chars, List.cons_append] at whole
  refine ⟨⟨first, rest ++ more, whole.symm, .inl letter⟩, word, fun ⟨others, reserved⟩ => ?_⟩
  rw [← whole] at reserved
  exact ne_underscore_of_isAlpha letter (List.cons.inj reserved).1.symm

/-- An identifier keeps what its name opens with. -/
theorem Opening.prefix_sanitize {front : String} (opening : Opening front) (name : String) :
    front.toList <+: (sanitize (front ++ name)).toList := by
  obtain ⟨first, rest, chars, letter⟩ := opening.exists_cons
  have word : front.toList.map (fun c => if isWord c then c else '_') = front.toList := by
    rw [List.map_congr_left fun c member => if_pos (opening.word c member), List.map_id']
  rw [sanitize, String.toList_append, List.map_append, word, chars, List.cons_append,
    String.toList_ofList]
  unfold dropReserved
  split
  next same => exact absurd (List.cons.inj same).1 (ne_underscore_of_isAlpha letter)
  next =>
    rw [openWord, isDigit_of_isAlpha letter, if_neg Bool.false_ne_true, ← List.cons_append]
    exact List.prefix_append _ _

/-- A suffix does not change how a name starts. -/
theorem prefix_firstFree (taken : List String) {base : String} {front : List Char}
    (starts : front <+: base.toList) : front <+: (firstFree taken base).toList := by
  obtain ⟨suffix, chosen⟩ := exists_firstFree_eq taken base
  rw [chosen, candidate]
  split
  next => exact starts
  next =>
    rw [String.toList_append, String.toList_append, List.append_assoc]
    exact starts.trans (List.prefix_append _ _)

/-! ## Characters -/

theorem run_dropReserved {chars : List Char} (word : Run isWord chars) :
    Run isWord (dropReserved chars) := by
  fun_induction dropReserved chars with
  | case1 rest ih => exact ih fun c member => word c (List.mem_cons_of_mem _ member)
  | case2 chars => exact word

/-- An identifier has the characters of one, whatever name it is made of. -/
theorem run_sanitize (name : String) : Run isWord (sanitize name).toList := by
  have word : Run isWord (name.toList.map fun c => if isWord c then c else '_') := by
    intro c member
    obtain ⟨d, -, rfl⟩ := List.mem_map.1 member
    split
    next inWord => exact inWord
    next => decide
  have kept := run_dropReserved word
  rw [sanitize, String.toList_ofList]
  generalize dropReserved _ = chars at kept
  unfold openWord
  split
  next => exact List.forall_mem_singleton.2 (by decide)
  next =>
    split
    next => exact List.forall_mem_cons.2 ⟨by decide, kept⟩
    next => exact kept

theorem run_firstFree (taken : List String) {base : String} (word : Run isWord base.toList) :
    Run isWord (firstFree taken base).toList := by
  obtain ⟨suffix, chosen⟩ := exists_firstFree_eq taken base
  rw [chosen, candidate]
  split
  next => exact word
  next =>
    rw [String.toList_append, String.toList_append]
    refine List.forall_mem_append.2 ⟨List.forall_mem_append.2 ⟨word, ?_⟩, fun c member => ?_⟩
    · exact List.all_eq_true.1 (by decide)
    · rw [Nat.toString_eq_ofList_toDigits, String.toList_ofList] at member
      have digit := Nat.isDigit_of_mem_toDigits (by decide) (by decide) member
      simp [isWord, Char.isAlphanum, digit]

end MapStyle.Identifier
