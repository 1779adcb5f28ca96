import MapStyle.Proofs.Color.Functional
import MapStyle.Proofs.Color.Hexadecimal
import MapStyle.Proofs.Dictionary

/-!
# What texts denote colors

The notations of colors together: hexadecimal digits after `#`, channels between parentheses, and
names. A text is read as a color exactly where, without the white space at its ends, it is in one
of them, and then as the color that it denotes there.
-/

namespace MapStyle.Color

open Text

/-! ## Names -/

/-- What a name of a color denotes, in any case. -/
def Named (text : List Char) (color : Color Single) : Prop :=
  ∃ name, Spells name.toList text ∧ (name, color) ∈ named

theorem ofName?_eq_some {text : List Char} {color : Color Single} :
    ofName? text = some color ↔ Named text color := by
  have distinct : ((named : List (String × Color Single)).map Prod.fst).Nodup := by decide
  constructor
  · intro found
    refine ⟨String.ofList (text.map Char.toLower), ?_, mem_of_lookup found⟩
    exact String.toList_ofList.symm
  · rintro ⟨name, spelled, member⟩
    rw [ofName?, spelled, String.ofList_toList]
    exact lookup_of_mem distinct member

/-! ## Texts -/

/-- What a text denotes in one of the notations. -/
inductive Denotes : List Char → Color Single → Prop
  | hexadecimal {digits : List Char} {color : Color Single} (written : Hexadecimal digits color) :
      Denotes ('#' :: digits) color
  | functional {text : List Char} {color : Color Single} (written : Functional text color) :
      Denotes text color
  | named {text : List Char} {color : Color Single} (written : Named text color) :
      Denotes text color

/-- No name has a mark or a parenthesis in it. -/
theorem Named.plain {text : List Char} {color : Color Single} (written : Named text color) :
    '#' ∉ text ∧ '(' ∉ text := by
  obtain ⟨name, spelled, member⟩ := written
  have plain : ∀ name ∈ (named : List (String × Color Single)).map Prod.fst,
      '#' ∉ name.toList ∧ '(' ∉ name.toList := by decide
  obtain ⟨mark, parenthesis⟩ := plain name (List.mem_map_of_mem member)
  rw [← spelled] at mark parenthesis
  exact ⟨fun inText => mark (List.mem_map.2 ⟨'#', inText, rfl⟩),
    fun inText => parenthesis (List.mem_map.2 ⟨'(', inText, rfl⟩)⟩

/-- A text is read as a color exactly where, without the white space at its ends, it denotes one:
three, four, six or eight hexadecimal digits after `#`, three or four channels after `rgb` or
`rgba`, or a name. The color is the one that is denoted. -/
theorem ofText_iff_denotes (text : String) (color : Color Single) :
    ofText? Double text = some color ↔ ∃ body, Trims text.toList body ∧ Denotes body color := by
  rw [ofText?]
  constructor
  · intro read
    refine ⟨trim text.toList, trims_trim _, ?_⟩
    split at read
    next digits starts =>
      rw [starts]
      exact .hexadecimal (ofHex?_eq_some.1 read)
    next =>
      split at read
      next ofFunction =>
        cases read
        exact .functional (ofFunction?_eq_some.1 ofFunction)
      next => exact .named (ofName?_eq_some.1 read)
  · rintro ⟨body, trims, denoted⟩
    rw [trim_eq_iff.2 trims]
    cases denoted with
    | hexadecimal written => exact ofHex?_eq_some.2 written
    | functional written =>
      obtain ⟨c, tail, rfl, lower⟩ := written.starts
      split
      next same =>
        rw [(List.cons.inj same).1] at lower
        exact absurd lower (by decide)
      next => rw [ofFunction?_eq_some.2 written]
    | named written =>
      obtain ⟨mark, parenthesis⟩ := written.plain
      have other : (ofFunction? (W := Double) body : Option (Color Single)) = none :=
        Option.eq_none_iff_forall_ne_some.2 fun _ read =>
          parenthesis (ofFunction?_eq_some.1 read).opens
      split
      next => exact absurd List.mem_cons_self mark
      next =>
        rw [other]
        exact ofName?_eq_some.2 written

end MapStyle.Color
