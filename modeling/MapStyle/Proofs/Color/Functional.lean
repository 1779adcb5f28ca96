import MapStyle.Color.Notation
import MapStyle.Number.Machine
import MapStyle.Proofs.Number.Notation
import Mathlib.Data.List.Basic

/-!
# Colors in functional notation

The grammar of channels between parentheses after `rgb` or `rgba`, apart from the code that reads
it. A channel is a decimal literal or a word for an exceptional number, with blanks around it, and
what follows it, a comma or a parenthesis, is no part of it; so the reader, which takes as much as
it can, takes exactly the channel.
-/

namespace MapStyle.Color

open Text

/-! ## Words -/

theorem dropWord?_eq_some {word text rest : List Char} :
    dropWord? word text = some rest ↔ ∃ front, text = front ++ rest ∧ Spells word front := by
  induction word generalizing text with
  | nil =>
    rw [dropWord?, Option.some.injEq]
    constructor
    · rintro rfl
      exact ⟨[], rfl, rfl⟩
    · rintro ⟨front, rfl, spelled⟩
      rw [List.map_eq_nil_iff.1 spelled]
      rfl
  | cons c word ih =>
    cases text with
    | nil =>
      rw [dropWord?]
      constructor
      · intro none
        cases none
      · rintro ⟨front, empty, spelled⟩
        rw [(List.append_eq_nil_iff.1 empty.symm).1] at spelled
        cases spelled
    | cons d text =>
      rw [dropWord?]
      split
      next lower =>
        rw [ih]
        constructor
        · rintro ⟨front, rfl, spelled⟩
          exact ⟨d :: front, rfl, congrArg₂ List.cons lower spelled⟩
        · rintro ⟨front, same, spelled⟩
          cases front with
          | nil => cases spelled
          | cons e front =>
            rw [List.cons_append, List.cons.injEq] at same
            exact ⟨front, same.2, (List.cons.inj spelled).2⟩
      next different =>
        constructor
        · intro none
          cases none
        · rintro ⟨front, same, spelled⟩
          cases front with
          | nil => cases spelled
          | cons e front =>
            rw [List.cons_append, List.cons.injEq] at same
            exact absurd (same.1 ▸ (List.cons.inj spelled).1) different

theorem dropWord?_append {word front : List Char} (spelled : Spells word front)
    (rest : List Char) : dropWord? word (front ++ rest) = some rest :=
  dropWord?_eq_some.2 ⟨front, rfl, spelled⟩

theorem dropWord?_of_ne {c d : Char} {word text : List Char} (different : d.toLower ≠ c) :
    dropWord? (c :: word) (d :: text) = none := by
  rw [dropWord?, if_neg different]

/-- A word is not dropped where the text goes on otherwise. -/
theorem dropWord?_longer {word front rest : List Char} (spelled : Spells word front) {c : Char}
    (ends : ∀ d, rest.head? = some d → d.toLower ≠ c) (more : List Char) :
    dropWord? (word ++ c :: more) (front ++ rest) = none := by
  induction word generalizing front with
  | nil =>
    rw [List.map_eq_nil_iff.1 spelled]
    cases rest with
    | nil => rfl
    | cons d rest => exact dropWord?_of_ne (ends d rfl)
  | cons first word ih =>
    cases front with
    | nil => cases spelled
    | cons d front =>
      rw [Spells, List.map_cons, List.cons.injEq] at spelled
      rw [List.cons_append, List.cons_append, dropWord?, if_pos spelled.1]
      exact ih spelled.2

/-! ## Channels -/

section Channels

variable {W : Type} [Scalar W]

/-- What a text denotes as a number. -/
inductive Channel : List Char → W → Prop
  | literal {text : List Char} {value : Decimal} (written : Decimal.Literal text value) :
      Channel text (Scalar.ofDecimal value)
  | undefined {text : List Char} (spelled : Spells ['n', 'a', 'n'] text) :
      Channel text Scalar.undefined
  | infinity {text : List Char} (spelled : Spells ['i', 'n', 'f'] text) :
      Channel text Scalar.infinity

/-- A number with blanks around it. -/
inductive Spaced : List Char → W → Prop
  | between {before text after : List Char} {channel : W} (front : Run isBlank before)
      (written : Channel text channel) (back : Run isBlank after) :
      Spaced (before ++ text ++ after) channel

/-- Numbers with blanks around them, separated by commas. -/
inductive Channels : List Char → List W → Prop
  | last {text : List Char} {channel : W} (spaced : Spaced text channel) : Channels text [channel]
  | next {text rest : List Char} {channel : W} {channels : List W} (spaced : Spaced text channel)
      (others : Channels rest channels) : Channels (text ++ ',' :: rest) (channel :: channels)

variable {text rest : List Char} {channel : W} {channels : List W}

theorem readChannel_sound (read : readChannel text = some (channel, rest)) :
    ∃ front, text = front ++ rest ∧ Channel front channel := by
  unfold readChannel at read
  split at read
  next value left scanned =>
    cases read
    obtain ⟨literal, same, written⟩ := Decimal.scan_sound scanned
    exact ⟨literal, same, .literal written⟩
  next => cases read
  next =>
    split at read
    next left dropped =>
      cases read
      obtain ⟨front, same, spelled⟩ := dropWord?_eq_some.1 dropped
      exact ⟨front, same, .undefined spelled⟩
    next =>
      obtain ⟨left, dropped, same⟩ := Option.map_eq_some_iff.1 read
      cases same
      obtain ⟨front, same, spelled⟩ := dropWord?_eq_some.1 dropped
      exact ⟨front, same, .infinity spelled⟩

/-- A word that starts with a letter of no literal is scanned as no literal. -/
theorem scan_word {first : Char} {word : List Char} (letter : first = 'n' ∨ first = 'i')
    (spelled : Spells (first :: word) text) (rest : List Char) :
    Decimal.scan (text ++ rest) = .absent := by
  cases text with
  | nil => cases spelled
  | cons c text =>
    have lower : c.toLower = first := (List.cons.inj spelled).1
    have outside : (c ≠ '-' ∧ c ≠ '+') ∧ c ≠ '.' ∧ c.isDigit = false := by
      rcases letter with rfl | rfl
      · rcases eq_or_upper lower with rfl | rfl
        · decide
        · decide
      · rcases eq_or_upper lower with rfl | rfl
        · decide
        · decide
    exact Decimal.scan_absent outside.1 outside.2.1 outside.2.2

/-- A number is read as a whole where it could not go on. -/
theorem Channel.read (written : Channel text channel) (stops : Stops Decimal.goesOn rest) :
    readChannel (text ++ rest) = some (channel, rest) := by
  cases written with
  | literal written => rw [readChannel, written.scanned stops]
  | undefined spelled =>
    rw [readChannel, scan_word (.inl rfl) spelled]
    simp only [dropWord?_append spelled rest]
  | infinity spelled =>
    have other : dropWord? ['n', 'a', 'n'] (text ++ rest) = none := by
      cases text with
      | nil => cases spelled
      | cons c text =>
        refine dropWord?_of_ne ?_
        rw [show c.toLower = 'i' from (List.cons.inj spelled).1]
        decide
    rw [readChannel, scan_word (.inr rfl) spelled]
    simp only [other, dropWord?_append spelled rest, Option.map_some]

/-- A number is some text that does not start with a blank. -/
theorem Channel.starts (written : Channel text channel) :
    ∃ c tail, text = c :: tail ∧ isBlank c = false := by
  have of_letter {first : Char} {word : List Char} (letter : first = 'n' ∨ first = 'i')
      (spelled : Spells (first :: word) text) : ∃ c tail, text = c :: tail ∧ isBlank c = false := by
    cases text with
    | nil => cases spelled
    | cons c text =>
      refine ⟨c, text, rfl, ?_⟩
      have lower : c.toLower = first := (List.cons.inj spelled).1
      rcases letter with rfl | rfl
      · rcases eq_or_upper lower with rfl | rfl
        · rfl
        · rfl
      · rcases eq_or_upper lower with rfl | rfl
        · rfl
        · rfl
  cases written with
  | literal written =>
    obtain ⟨c, tail, rfl, first⟩ := written.starts
    refine ⟨c, tail, rfl, ?_⟩
    rcases first with rfl | rfl | digit | rfl
    · rfl
    · rfl
    · cases blank : isBlank c with
      | false => rfl
      | true =>
        simp only [isBlank, Bool.or_eq_true, beq_iff_eq] at blank
        rcases blank with ((rfl | rfl) | rfl) | rfl
        all_goals cases digit
    · rfl
  | undefined spelled => exact of_letter (.inl rfl) spelled
  | infinity spelled => exact of_letter (.inr rfl) spelled

/-- Whether numbers are separated or closed by a character. -/
def Delimits (c : Char) : Prop := c = ',' ∨ c = ')'

theorem Delimits.not_blank {c : Char} (delimits : Delimits c) : isBlank c = false := by
  rcases delimits with rfl | rfl
  · rfl
  · rfl

theorem stops_before {c : Char} {after : List Char} (blank : Run isBlank after)
    (delimits : Delimits c) (tail : List Char) : Stops Decimal.goesOn (after ++ c :: tail) := by
  cases after with
  | nil =>
    refine stops_cons ?_
    rcases delimits with rfl | rfl
    · rfl
    · rfl
  | cons d after =>
    have first := blank d List.mem_cons_self
    simp only [isBlank, Bool.or_eq_true, beq_iff_eq] at first
    refine stops_cons ?_
    rcases first with ((rfl | rfl) | rfl) | rfl
    all_goals rfl

/-- What is read as a number is one with the blanks around it. -/
theorem spaced_of_read {left tail : List Char} {delimiter : Char}
    (read : readChannel (skipBlanks text) = some (channel, left))
    (followed : skipBlanks left = delimiter :: tail) :
    ∃ front, text = front ++ delimiter :: tail ∧ Spaced front channel := by
  obtain ⟨inner, same, written⟩ := readChannel_sound read
  have before := List.takeWhile_append_dropWhile (p := isBlank) (l := text)
  have after := List.takeWhile_append_dropWhile (p := isBlank) (l := left)
  rw [← skipBlanks, same] at before
  rw [← skipBlanks, followed] at after
  refine ⟨_, ?_, .between (run_takeWhile isBlank text) written (run_takeWhile isBlank left)⟩
  rw [List.append_assoc, List.append_assoc, after, before]

/-- A number is read with the blanks around it up to the character after them. -/
theorem Spaced.read {delimiter : Char} (spaced : Spaced text channel)
    (delimits : Delimits delimiter) (tail : List Char) :
    ∃ left, readChannel (skipBlanks (text ++ delimiter :: tail)) = some (channel, left) ∧
      skipBlanks left = delimiter :: tail := by
  cases spaced with
  | @between before inner after _ front written back =>
    obtain ⟨c, more, same, notBlank⟩ := written.starts
    refine ⟨after ++ delimiter :: tail, ?_, dropWhile_run back (stops_cons delimits.not_blank)⟩
    have stops : Stops isBlank (inner ++ (after ++ delimiter :: tail)) := by
      rw [same]
      exact stops_cons notBlank
    rw [List.append_assoc, List.append_assoc, skipBlanks, dropWhile_run front stops]
    exact written.read (stops_before back delimits tail)

/-- Numbers are read up to the closing parenthesis. -/
theorem readChannels_sound {fuel : Nat} (read : readChannels fuel text = some (channels, rest)) :
    ∃ front, text = front ++ ')' :: rest ∧ Channels front channels := by
  induction fuel generalizing text channels with
  | zero => cases read
  | succ fuel ih =>
    rw [readChannels] at read
    split at read
    next => cases read
    next channel left ofFirst =>
      split at read
      next tail followed =>
        obtain ⟨⟨others, end_⟩, readOthers, same⟩ := Option.map_eq_some_iff.1 read
        cases same
        obtain ⟨spaced, rfl, first⟩ := spaced_of_read ofFirst followed
        obtain ⟨front, rfl, listed⟩ := ih readOthers
        refine ⟨spaced ++ ',' :: front, ?_, .next first listed⟩
        rw [List.append_assoc, List.cons_append]
      next tail followed =>
        cases read
        obtain ⟨spaced, same, first⟩ := spaced_of_read ofFirst followed
        exact ⟨spaced, same, .last first⟩
      next => cases read

/-- All numbers up to the closing parenthesis are read, where there is fuel for them. -/
theorem Channels.read (listed : Channels text channels) (rest : List Char) {fuel : Nat}
    (enough : channels.length ≤ fuel) :
    readChannels fuel (text ++ ')' :: rest) = some (channels, rest) := by
  induction listed generalizing fuel with
  | last spaced =>
    cases fuel with
    | zero => cases enough
    | succ fuel =>
      obtain ⟨left, read, followed⟩ := spaced.read (.inr rfl) rest
      rw [readChannels]
      simp only [read, followed]
  | @next first others channel channels spaced listed ih =>
    cases fuel with
    | zero => cases enough
    | succ fuel =>
      obtain ⟨left, read, followed⟩ := spaced.read (.inl rfl) (others ++ ')' :: rest)
      rw [readChannels, List.append_assoc, List.cons_append]
      simp only [read, followed, ih (Nat.le_of_succ_le_succ enough), Option.map_some]

theorem Channels.length_le (listed : Channels text channels) :
    channels.length ≤ text.length + 1 := by
  induction listed with
  | last =>
    rw [List.length_singleton]
    omega
  | next spaced others ih =>
    simp only [List.length_append, List.length_cons]
    omega

end Channels

/-! ## The functional notation -/

/-- Channels up to 255 and an alpha up to one that may be missing make a color. -/
inductive Mixes : List Double → Color Single → Prop
  | withoutAlpha {red green blue : Double} :
      Mixes [red, green, blue] ⟨narrow (red / Scalar.ofNat 255), narrow (green / Scalar.ofNat 255),
        narrow (blue / Scalar.ofNat 255), Scalar.one⟩
  | withAlpha {red green blue alpha : Double} :
      Mixes [red, green, blue, alpha] ⟨narrow (red / Scalar.ofNat 255),
        narrow (green / Scalar.ofNat 255), narrow (blue / Scalar.ofNat 255), narrow alpha⟩

/-- What the functional notation denotes. Blanks may stand on either side of the parenthesis that
opens: after it they belong to the first channel. -/
inductive Functional : List Char → Color Single → Prop
  | call {function gap listed : List Char} {channels : List Double} {color : Color Single}
      (spelled : Spells ['r', 'g', 'b'] function ∨ Spells ['r', 'g', 'b', 'a'] function)
      (blank : Run isBlank gap) (written : Channels listed channels)
      (mixed : Mixes channels color) :
      Functional (function ++ (gap ++ '(' :: (listed ++ [')']))) color

theorem ofComponents?_eq_some {channels : List Double} {color : Color Single} :
    ofComponents? channels = some color ↔ Mixes channels color := by
  have full : (narrow (Scalar.one : Double) : Single) = Scalar.one := by decide
  constructor
  · intro mixed
    unfold ofComponents? at mixed
    split at mixed
    next =>
      cases mixed
      rw [ofChannels, full]
      exact .withoutAlpha
    next =>
      cases mixed
      exact .withAlpha
    next => cases mixed
  · intro mixes
    cases mixes with
    | withoutAlpha =>
      rw [ofComponents?, ofChannels, full]
    | withAlpha => rfl

theorem dropFunction?_sound {text rest : List Char} (dropped : dropFunction? text = some rest) :
    ∃ function, text = function ++ rest ∧
      (Spells ['r', 'g', 'b'] function ∨ Spells ['r', 'g', 'b', 'a'] function) := by
  unfold dropFunction? at dropped
  split at dropped
  next left ofLong =>
    cases dropped
    obtain ⟨function, same, spelled⟩ := dropWord?_eq_some.1 ofLong
    exact ⟨function, same, .inr spelled⟩
  next =>
    obtain ⟨function, same, spelled⟩ := dropWord?_eq_some.1 dropped
    exact ⟨function, same, .inl spelled⟩

/-- A name of the notation is dropped before what does not make it longer. -/
theorem dropFunction?_append {function rest : List Char}
    (spelled : Spells ['r', 'g', 'b'] function ∨ Spells ['r', 'g', 'b', 'a'] function)
    (ends : ∀ c, rest.head? = some c → c.toLower ≠ 'a') :
    dropFunction? (function ++ rest) = some rest := by
  rcases spelled with short | long
  · have other : dropWord? ['r', 'g', 'b', 'a'] (function ++ rest) = none :=
      dropWord?_longer short ends []
    rw [dropFunction?, other]
    exact dropWord?_append short rest
  · rw [dropFunction?, dropWord?_append long rest]

theorem ofFunction?_eq_some {text : List Char} {color : Color Single} :
    ofFunction? (W := Double) text = some color ↔ Functional text color := by
  constructor
  · intro read
    unfold ofFunction? at read
    split at read
    next => cases read
    next rest dropped =>
      obtain ⟨function, rfl, spelled⟩ := dropFunction?_sound dropped
      have gap := List.takeWhile_append_dropWhile (p := isBlank) (l := rest)
      split at read
      next inner opened =>
        split at read
        next channels ofChannels =>
          obtain ⟨listed, rfl, written⟩ := readChannels_sound ofChannels
          rw [← skipBlanks, opened] at gap
          rw [← gap]
          exact .call spelled (run_takeWhile isBlank rest) written (ofComponents?_eq_some.1 read)
        next => cases read
      next => cases read
  · intro denoted
    cases denoted with
    | @call function gap listed channels _ spelled blank written mixed =>
      have ends : ∀ c, (gap ++ '(' :: (listed ++ [')'])).head? = some c → c.toLower ≠ 'a' := by
        intro c first lower
        have letter : c = 'a' ∨ c = 'A' := eq_or_upper lower
        cases gap with
        | nil =>
          rw [← Option.some.inj first] at letter
          exact absurd letter (by decide)
        | cons d gap =>
          have blank := blank d List.mem_cons_self
          rw [Option.some.inj first] at blank
          rcases letter with rfl | rfl
          · cases blank
          · cases blank
      have opens : Stops isBlank ('(' :: (listed ++ [')'])) := stops_cons rfl
      have enough : channels.length ≤ (listed ++ [')']).length := by
        rw [List.length_append]
        exact written.length_le
      rw [ofFunction?, dropFunction?_append spelled ends]
      simp only [skipBlanks, dropWhile_run blank opens, written.read [] enough]
      exact ofComponents?_eq_some.2 mixed

theorem Functional.opens {text : List Char} {color : Color Single}
    (written : Functional text color) : '(' ∈ text := by
  cases written with
  | call => exact List.mem_append_right _ (List.mem_append_right _ List.mem_cons_self)

theorem Functional.starts {text : List Char} {color : Color Single}
    (written : Functional text color) : ∃ c tail, text = c :: tail ∧ c.toLower = 'r' := by
  cases written with
  | @call function gap listed channels _ spelled =>
    cases function with
    | nil =>
      rcases spelled with short | long
      · cases short
      · cases long
    | cons c function =>
      refine ⟨c, _, rfl, ?_⟩
      rcases spelled with short | long
      · exact (List.cons.inj short).1
      · exact (List.cons.inj long).1

end MapStyle.Color
