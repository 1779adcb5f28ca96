import MapStyle.Text.Blank
import Mathlib.Data.List.TakeWhile
import Mathlib.Tactic.IntervalCases

/-!
# Runs of characters

A scanner takes the longest run of characters of a class, so a run that is followed by none of
the class is taken as a whole. The white space that is trimmed from a text is the run at either
end of it. What is read in either case of its letters is a word whose lower case is known.
-/

namespace MapStyle.Text

/-- All characters of a text are of a class. -/
def Run (isIn : Char → Bool) (text : List Char) : Prop := ∀ c ∈ text, isIn c = true

/-- A text does not go on with a class: it is empty or starts with another character. -/
def Stops (isIn : Char → Bool) (text : List Char) : Prop :=
  ∀ c, text.head? = some c → isIn c = false

variable {isIn : Char → Bool} {run rest text body : List Char}

theorem run_nil : Run isIn [] := fun _ member => nomatch member

theorem Run.reverse (run_in : Run isIn run) : Run isIn run.reverse :=
  fun c member => run_in c (List.mem_reverse.1 member)

theorem stops_cons {c : Char} (outside : isIn c = false) : Stops isIn (c :: rest) := by
  intro d first
  rw [← Option.some.inj first]
  exact outside

theorem Stops.append (stops : Stops isIn text) (nonempty : text ≠ []) :
    Stops isIn (text ++ rest) := by
  obtain ⟨c, text, rfl⟩ := List.exists_cons_of_ne_nil nonempty
  exact stops

theorem run_takeWhile (isIn : Char → Bool) (text : List Char) : Run isIn (text.takeWhile isIn) :=
  fun _ member => List.mem_takeWhile_imp member

theorem stops_dropWhile (isIn : Char → Bool) (text : List Char) :
    Stops isIn (text.dropWhile isIn) := by
  induction text with
  | nil => exact fun c first => nomatch first
  | cons d text ih =>
    rw [List.dropWhile_cons]
    split
    next => exact ih
    next outside => exact stops_cons (by simpa using outside)

theorem dropWhile_of_stops (stops : Stops isIn rest) : rest.dropWhile isIn = rest := by
  cases rest with
  | nil => rfl
  | cons c rest => rw [List.dropWhile_cons_of_neg (by simp [stops c rfl])]

theorem takeWhile_of_stops (stops : Stops isIn rest) : rest.takeWhile isIn = [] := by
  cases rest with
  | nil => rfl
  | cons c rest => rw [List.takeWhile_cons_of_neg (by simp [stops c rfl])]

/-- What follows a whole run is what is left when the run is dropped. -/
theorem dropWhile_run (run_in : Run isIn run) (stops : Stops isIn rest) :
    (run ++ rest).dropWhile isIn = rest := by
  rw [List.dropWhile_append_of_pos run_in, dropWhile_of_stops stops]

theorem takeWhile_run (run_in : Run isIn run) (stops : Stops isIn rest) :
    (run ++ rest).takeWhile isIn = run := by
  rw [List.takeWhile_append_of_pos run_in, takeWhile_of_stops stops, List.append_nil]

/-- Texts that start with whole runs start with the same run when they are the same. -/
theorem append_inj_of_run {run' rest' : List Char} (run_in : Run isIn run) (run_in' : Run isIn run')
    (stops : Stops isIn rest) (stops' : Stops isIn rest') (same : run ++ rest = run' ++ rest') :
    run = run' ∧ rest = rest' := by
  constructor
  · rw [← takeWhile_run run_in stops, same, takeWhile_run run_in' stops']
  · rw [← dropWhile_run run_in stops, same, dropWhile_run run_in' stops']

/-! ## Letters -/

/-- A text is a word but for the case of its letters. -/
def Spells (word text : List Char) : Prop := text.map Char.toLower = word

/-- What holds of the characters with codes in an interval. -/
theorem of_codes {p : Char → Prop} (least greatest : Nat)
    (all : ∀ n, least ≤ n → n ≤ greatest → p (Char.ofNat n)) {c : Char} (above : least ≤ c.toNat)
    (below : c.toNat ≤ greatest) : p c := by
  have same := all c.toNat above below
  rwa [Char.ofNat_toNat] at same

/-- A character is its lower case or the upper case of it. -/
theorem eq_or_upper {c letter : Char} (lower : c.toLower = letter) :
    c = letter ∨ c = letter.toUpper := by
  subst lower
  by_cases upper : c.val ≥ 'A'.val ∧ c.val ≤ 'Z'.val
  · right
    refine of_codes (p := fun c => c = c.toLower.toUpper) 65 90 (fun n above below => ?_)
      (UInt32.le_iff_toNat_le.1 upper.1) (UInt32.le_iff_toNat_le.1 upper.2)
    interval_cases n
    all_goals rfl
  · left
    have same : c.toLower = c := dif_neg upper
    exact same.symm

/-! ## White space at the ends -/

/-- A text is another one between white space, and that one neither starts nor ends with it. -/
structure Trims (text body : List Char) : Prop where
  between : ∃ front back, text = front ++ body ++ back ∧ Run isWhite front ∧ Run isWhite back
  starts : Stops isWhite body
  ends : Stops isWhite body.reverse

theorem trims_trim (text : List Char) : Trims text (trim text) := by
  have front := List.takeWhile_append_dropWhile (p := isWhite) (l := text)
  have back := List.takeWhile_append_dropWhile (p := isWhite) (l := (trimStart text).reverse)
  have inner : trimStart text =
      trim text ++ ((trimStart text).reverse.takeWhile isWhite).reverse := by
    rw [trim, trimEnd, ← List.reverse_append, back, List.reverse_reverse]
  refine ⟨⟨_, ((trimStart text).reverse.takeWhile isWhite).reverse, ?_,
    run_takeWhile isWhite text, (run_takeWhile isWhite _).reverse⟩, ?_, ?_⟩
  · rw [List.append_assoc, ← inner]
    exact front.symm
  · intro c first
    refine stops_dropWhile isWhite text c ?_
    rw [← trimStart, inner, List.head?_append, first, Option.some_or]
  · rw [trim, trimEnd, List.reverse_reverse]
    exact stops_dropWhile isWhite _

/-- Without the white space before it, a text starts with what is left when it is trimmed. -/
theorem Trims.exists_trimStart (trims : Trims text body) (nonempty : body ≠ []) :
    ∃ back, trimStart text = body ++ back := by
  obtain ⟨⟨front, back, rfl, front_white, -⟩, starts, -⟩ := trims
  refine ⟨back, ?_⟩
  rw [trimStart, List.append_assoc, dropWhile_run front_white (starts.append nonempty)]

/-- Trimming is told apart by what it leaves. -/
theorem trim_eq_iff : trim text = body ↔ Trims text body := by
  constructor
  · rintro rfl
    exact trims_trim text
  · rintro ⟨⟨front, back, rfl, front_white, back_white⟩, starts, ends⟩
    cases body with
    | nil =>
      have white : Run isWhite (front ++ back) := List.forall_mem_append.2 ⟨front_white, back_white⟩
      have dropped : (front ++ back ++ []).dropWhile isWhite = [] :=
        dropWhile_run white fun c first => nomatch first
      rw [List.append_nil] at dropped
      rw [trim, trimStart, List.append_nil, dropped]
      rfl
    | cons c body =>
      have nonempty : c :: body ≠ [] := List.cons_ne_nil c body
      rw [trim, trimStart, List.append_assoc, dropWhile_run front_white (starts.append nonempty),
        trimEnd, List.reverse_append, dropWhile_run back_white.reverse ends, List.reverse_reverse]

end MapStyle.Text
