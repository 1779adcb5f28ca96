import MapStyle.Proofs.Color.Notation
import MapStyle.Style.Spec

/-!
# Texts as defaults of variables

A text is the default of a variable as the color it denotes where it looks like one, which is told
from how it starts. So hexadecimal notation is always a color, and functional notation is one
where the parenthesis follows its name at once. With a blank between them it is a color as the
value of a property, but a plain text as the default of a variable.
-/

namespace MapStyle.StyleSpec

open Text

/-- A blank stands right before the first parenthesis of a text. -/
def Detached (text : List Char) : Prop :=
  ∃ c, (text.takeWhile (· != '(')).getLast? = some c ∧ isBlank c = true

/-! ## How texts start -/

theorem looksLikeColor_hexadecimal {text : String} {digits : List Char}
    (trims : Trims text.toList ('#' :: digits)) : looksLikeColor text = true := by
  obtain ⟨back, starts⟩ := trims.exists_trimStart (List.cons_ne_nil _ _)
  rw [looksLikeColor, starts]
  rfl

/-- Functional notation looks like a color where nothing stands between its name and the
parenthesis. -/
theorem looksLikeColor_functional {text : String} {function gap listed : List Char}
    (trims : Trims text.toList (function ++ (gap ++ '(' :: listed)))
    (spelled : Spells ['r', 'g', 'b'] function ∨ Spells ['r', 'g', 'b', 'a'] function)
    (blank : Run isBlank gap) : looksLikeColor text = gap.isEmpty := by
  have nonempty : function ++ (gap ++ '(' :: listed) ≠ [] := by simp
  obtain ⟨back, starts⟩ := trims.exists_trimStart nonempty
  have lower : (trimStart text.toList).map Char.toLower = function.map Char.toLower ++
      (gap.map Char.toLower ++ '(' :: (listed ++ back).map Char.toLower) := by
    rw [starts]
    simp
  rw [looksLikeColor, lower]
  cases gap with
  | nil =>
    rcases spelled with short | long
    · rw [short]
      rfl
    · rw [long]
      rfl
  | cons c gap =>
    have first := blank c List.mem_cons_self
    simp only [isBlank, Bool.or_eq_true, beq_iff_eq] at first
    rcases spelled with short | long
    · rw [short]
      rcases first with ((rfl | rfl) | rfl) | rfl
      all_goals rfl
    · rw [long]
      rcases first with ((rfl | rfl) | rfl) | rfl
      all_goals rfl

/-! ## Detached parentheses -/

theorem spelled_letters {function : List Char}
    (spelled : Spells ['r', 'g', 'b'] function ∨ Spells ['r', 'g', 'b', 'a'] function) :
    ∀ c ∈ function, c ≠ '(' ∧ isBlank c = false := by
  intro c member
  have inWord : c.toLower ∈ function.map Char.toLower := List.mem_map_of_mem member
  have letter : c.toLower ∈ ['r', 'g', 'b', 'a'] := by
    rcases spelled with short | long
    · rw [short] at inWord
      exact List.mem_append_left ['a'] inWord
    · rw [long] at inWord
      exact inWord
  simp only [List.mem_cons, List.not_mem_nil, or_false] at letter
  rcases letter with lower | lower | lower | lower
  all_goals
    rcases eq_or_upper lower with rfl | rfl
    · decide
    · decide

/-- A parenthesis is detached from the name before it where a gap is between them. -/
theorem detached_iff {function gap : List Char} (listed : List Char)
    (spelled : Spells ['r', 'g', 'b'] function ∨ Spells ['r', 'g', 'b', 'a'] function)
    (blank : Run isBlank gap) : Detached (function ++ (gap ++ '(' :: listed)) ↔ gap ≠ [] := by
  have letters := spelled_letters spelled
  have before : Run (· != '(') (function ++ gap) := by
    intro c member
    rcases List.mem_append.1 member with inName | inGap
    · simpa using (letters c inName).1
    · have blank := blank c inGap
      rw [bne_iff_ne]
      rintro rfl
      cases blank
  have named : function ≠ [] := by
    rintro rfl
    rcases spelled with short | long
    · cases short
    · cases long
  rw [Detached, ← List.append_assoc, takeWhile_run before (stops_cons rfl)]
  constructor
  · rintro ⟨c, last, isBlank_c⟩ rfl
    rw [List.append_nil] at last
    rw [(letters c (List.mem_of_getLast? last)).2] at isBlank_c
    cases isBlank_c
  · intro between
    obtain ⟨c, last⟩ := Option.ne_none_iff_exists'.1 (mt List.getLast?_eq_none_iff.1 between)
    refine ⟨c, ?_, blank c (List.mem_of_getLast? last)⟩
    rw [List.getLast?_append, last, Option.some_or]

theorem not_detached_hexadecimal {digits : List Char} {color : Color Single}
    (written : Color.Hexadecimal digits color) : ¬Detached ('#' :: digits) := by
  rintro ⟨c, last, blank⟩
  have inText := (List.takeWhile_sublist _).subset (List.mem_of_getLast? last)
  rcases List.mem_cons.1 inText with rfl | inDigits
  · cases blank
  · have digit := written.all_digits c inDigits
    simp only [isBlank, Bool.or_eq_true, beq_iff_eq] at blank
    rcases blank with ((rfl | rfl) | rfl) | rfl
    all_goals cases digit

/-- A text that is read as a color, and not by name, is that color as a default as well, unless a
blank stands before its parenthesis: then it is a default as the text that it is. -/
theorem default_of_color {text : String} {color : Color Single}
    (read : Color.ofText? Double text = some color)
    (unnamed : ¬Color.Named (trim text.toList) color) :
    (defaultValue? (.string text) = some (Value.color color : Value Double Single) ↔
      ¬Detached (trim text.toList)) ∧
    (Detached (trim text.toList) →
      defaultValue? (.string text) = some (Value.string text : Value Double Single)) := by
  have asColor (looks : looksLikeColor text = true) :
      defaultValue? (.string text) = some (Value.color color : Value Double Single) := by
    rw [defaultValue?, if_pos looks, read]
    rfl
  have asText (looks : looksLikeColor text = false) :
      defaultValue? (.string text) = some (Value.string text : Value Double Single) := by
    rw [defaultValue?, if_neg (by simp [looks])]
  obtain ⟨body, trims, denoted⟩ := (Color.ofText_iff_denotes text color).1 read
  rw [trim_eq_iff.2 trims] at unnamed ⊢
  cases denoted with
  | named written => exact absurd written unnamed
  | hexadecimal written =>
    have attached := not_detached_hexadecimal written
    exact ⟨⟨fun _ => attached, fun _ => asColor (looksLikeColor_hexadecimal trims)⟩,
      fun detached => absurd detached attached⟩
  | functional written =>
    cases written with
    | @call function gap listed channels _ spelled blank =>
      have looks := looksLikeColor_functional trims spelled blank
      rw [detached_iff _ spelled blank, not_not]
      cases gap with
      | nil => exact ⟨⟨fun _ => rfl, fun _ => asColor looks⟩, fun between => absurd rfl between⟩
      | cons c gap =>
        rw [asText looks]
        refine ⟨⟨fun same => ?_, fun none => ?_⟩, fun _ => rfl⟩
        · cases same
        · cases none

/-! ## Red with a blank before the parenthesis -/

def red : Color Single := ⟨Scalar.one, Scalar.zero, Scalar.zero, Scalar.one⟩

theorem red_attached : Color.ofText? Double "RGB(255, 0, 0)" = some red ∧
    ¬Color.Named (trim "RGB(255, 0, 0)".toList) red :=
  ⟨by decide, fun named => named.plain.2 (by decide +kernel)⟩

theorem red_detached : Color.ofText? Double "rgb (255, 0, 0)" = some red ∧
    ¬Color.Named (trim "rgb (255, 0, 0)".toList) red :=
  ⟨by decide, fun named => named.plain.2 (by decide +kernel)⟩

theorem default_of_red :
    (Color.ofText? Double "RGB(255, 0, 0)" = some red ∧
      defaultValue? (.string "RGB(255, 0, 0)") = some (Value.color red : Value Double Single)) ∧
    (Color.ofText? Double "rgb (255, 0, 0)" = some red ∧
      defaultValue? (.string "rgb (255, 0, 0)") =
        some (Value.string "rgb (255, 0, 0)" : Value Double Single)) := by
  obtain ⟨read, unnamed⟩ := red_attached
  obtain ⟨read', unnamed'⟩ := red_detached
  refine ⟨⟨read, (default_of_color read unnamed).1.2 ?attached⟩,
    ⟨read', (default_of_color read' unnamed').2 ?detached⟩⟩
  case attached =>
    rintro ⟨c, last, blank⟩
    have letter : (trim "RGB(255, 0, 0)".toList |>.takeWhile (· != '(')).getLast? = some 'B' := by
      decide
    rw [letter] at last
    cases last
    cases blank
  case detached => exact ⟨' ', by decide, rfl⟩

/-- So not every text that is read as a color, and not by name, is a color as a default. -/
theorem default_not_color :
    ¬∀ (text : String) (color : Color Single), Color.ofText? Double text = some color →
      ¬Color.Named (trim text.toList) color →
      defaultValue? (.string text) = some (Value.color color : Value Double Single) := by
  intro follows
  obtain ⟨read, unnamed⟩ := red_detached
  have plain : defaultValue? (.string "rgb (255, 0, 0)") =
      some (Value.string "rgb (255, 0, 0)" : Value Double Single) := rfl
  rw [follows _ _ read unnamed] at plain
  cases plain

end MapStyle.StyleSpec
