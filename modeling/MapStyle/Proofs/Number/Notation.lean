import MapStyle.Number.Decimal
import MapStyle.Proofs.Text.Runs
import Mathlib.Data.List.TakeDrop

/-!
# How decimal literals are written

The grammar of decimal literals, apart from the scanner: a sign that may be missing, digits with
a point among or around them, and a power of ten that may be missing. The scanner reads a literal
from the front of a text and nothing else, and it reads every literal that is followed by
something that could not belong to it.
-/

namespace MapStyle.Decimal

open Text

/-! ## The grammar -/

/-- A sign, and whether it is a minus. -/
inductive Sign : List Char → Bool → Prop
  | absent : Sign [] false
  | plus : Sign ['+'] false
  | minus : Sign ['-'] true

/-- Digits on at least one side of a point, or without one; before it and after it. -/
inductive Mantissa : List Char → List Char → List Char → Prop
  | whole {whole : List Char} (digits : Run Char.isDigit whole) (nonempty : whole ≠ []) :
      Mantissa whole whole []
  | point {whole fraction : List Char} (before : Run Char.isDigit whole)
      (after : Run Char.isDigit fraction) (nonempty : whole ≠ [] ∨ fraction ≠ []) :
      Mantissa (whole ++ '.' :: fraction) whole fraction

/-- A power of ten: `e` in either case, a sign and digits, or nothing for the power zero. -/
inductive Power : List Char → Int → Prop
  | absent : Power [] 0
  | marked {mark : Char} {sign digits : List Char} {negative : Bool}
      (marked : mark = 'e' ∨ mark = 'E') (signed : Sign sign negative)
      (run : Run Char.isDigit digits) (nonempty : digits ≠ []) :
      Power (mark :: (sign ++ digits))
        (if negative then -(naturalOf digits : Int) else naturalOf digits)

/-- A text is a decimal literal. -/
inductive Literal : List Char → Decimal → Prop
  | parts {sign mantissa whole fraction power : List Char} {negative : Bool} {exponent : Int}
      (signed : Sign sign negative) (digits : Mantissa mantissa whole fraction)
      (scaled : Power power exponent) :
      Literal (sign ++ mantissa ++ power) (ofParts negative whole fraction exponent)

/-- Whether a literal could go on with a character. -/
def goesOn (c : Char) : Bool := c.isDigit || c == '.' || c == 'e' || c == 'E'

variable {text rest whole fraction : List Char}

/-! ## Signs and runs of digits -/

theorem scanSign_sound (text : List Char) :
    ∃ sign, text = sign ++ (scanSign text).2 ∧ Sign sign (scanSign text).1 := by
  unfold scanSign
  split
  next => exact ⟨_, rfl, .minus⟩
  next => exact ⟨_, rfl, .plus⟩
  next => exact ⟨_, rfl, .absent⟩

/-- A sign is read off a text that starts with none. -/
theorem scanSign_append {sign : List Char} {negative : Bool} (signed : Sign sign negative)
    (unsigned : ∀ c, rest.head? = some c → c ≠ '-' ∧ c ≠ '+') :
    scanSign (sign ++ rest) = (negative, rest) := by
  cases signed with
  | plus => rfl
  | minus => rfl
  | absent =>
    cases rest with
    | nil => rfl
    | cons c rest =>
      obtain ⟨notMinus, notPlus⟩ := unsigned c rfl
      rw [List.nil_append, scanSign]
      · exact fun tail same => notMinus (List.cons.inj same).1
      · exact fun tail same => notPlus (List.cons.inj same).1

theorem spanDigits_eq (text : List Char) :
    spanDigits text = (text.takeWhile Char.isDigit, text.dropWhile Char.isDigit) :=
  List.span_eq_takeWhile_dropWhile _ _

theorem spanDigits_sound (spanned : spanDigits text = (whole, rest)) :
    text = whole ++ rest ∧ Run Char.isDigit whole := by
  rw [spanDigits_eq, Prod.mk.injEq] at spanned
  obtain ⟨rfl, rfl⟩ := spanned
  exact ⟨List.takeWhile_append_dropWhile.symm, run_takeWhile _ _⟩

theorem spanDigits_append (digits : Run Char.isDigit whole) (stops : Stops Char.isDigit rest) :
    spanDigits (whole ++ rest) = (whole, rest) := by
  rw [spanDigits_eq, takeWhile_run digits stops, dropWhile_run digits stops]

/-! ## Powers -/

theorem scanExponent_sound {exponent : Int} (scanned : scanExponent text = some (exponent, rest)) :
    ∃ power, text = power ++ rest ∧ Power power exponent := by
  unfold scanExponent at scanned
  split at scanned
  next =>
    cases scanned
    exact ⟨[], rfl, .absent⟩
  next c text =>
    split at scanned
    next marked =>
      obtain ⟨sign, signed, reads⟩ := scanSign_sound text
      rcases spanned : spanDigits (scanSign text).2 with ⟨digits, left⟩
      obtain ⟨spans, run⟩ := spanDigits_sound spanned
      simp only [spanned] at scanned
      split at scanned
      next => cases scanned
      next nonempty =>
        cases scanned
        refine ⟨c :: (sign ++ digits), ?_, .marked marked reads run (by simpa using nonempty)⟩
        rw [List.cons_append, List.append_assoc, ← spans, ← signed]
    next =>
      cases scanned
      exact ⟨[], rfl, .absent⟩

theorem goesOn_eq_false {c : Char} (stops : goesOn c = false) :
    c.isDigit = false ∧ c ≠ '.' ∧ ¬(c = 'e' ∨ c = 'E') := by
  simp only [goesOn, Bool.or_eq_false_iff, beq_eq_false_iff_ne] at stops
  obtain ⟨⟨⟨digit, point⟩, lower⟩, upper⟩ := stops
  exact ⟨digit, point, by rintro (rfl | rfl) <;> contradiction⟩

theorem stops_digits (stops : Stops goesOn rest) : Stops Char.isDigit rest :=
  fun c first => (goesOn_eq_false (stops c first)).1

theorem ne_sign {c : Char} (digit : c.isDigit = true) : c ≠ '-' ∧ c ≠ '+' := by
  constructor
  · rintro rfl
    exact absurd digit (by decide)
  · rintro rfl
    exact absurd digit (by decide)

/-- Digits do not start with a sign. -/
theorem unsigned_of_digits {digits : List Char} (run : Run Char.isDigit digits)
    (nonempty : digits ≠ []) (rest : List Char) :
    ∀ c, (digits ++ rest).head? = some c → c ≠ '-' ∧ c ≠ '+' := by
  obtain ⟨d, digits, rfl⟩ := List.exists_cons_of_ne_nil nonempty
  intro c first
  rw [← Option.some.inj first]
  exact ne_sign (run d List.mem_cons_self)

theorem Power.scanned {power : List Char} {exponent : Int} (powers : Power power exponent)
    (stops : Stops goesOn rest) : scanExponent (power ++ rest) = some (exponent, rest) := by
  cases powers with
  | absent =>
    cases rest with
    | nil => rfl
    | cons c rest =>
      have unmarked := (goesOn_eq_false (stops c rfl)).2.2
      rw [List.nil_append, scanExponent, if_neg unmarked]
  | @marked mark sign digits negative marked signed run nonempty =>
    have read := scanSign_append signed (unsigned_of_digits run nonempty rest)
    have spanned := spanDigits_append run (stops_digits stops)
    have some_digits : digits.isEmpty = false := by simpa using nonempty
    rw [List.cons_append, List.append_assoc, scanExponent, if_pos marked]
    simp only [read, spanned, some_digits, Bool.false_eq_true, if_false]

/-- A power starts with neither a digit nor a point, and neither does what follows it. -/
theorem Power.follows {power : List Char} {exponent : Int} (powers : Power power exponent)
    (stops : Stops goesOn rest) :
    ∀ c, (power ++ rest).head? = some c → c.isDigit = false ∧ c ≠ '.' := by
  cases powers with
  | absent =>
    intro c first
    obtain ⟨digit, point, -⟩ := goesOn_eq_false (stops c first)
    exact ⟨digit, point⟩
  | marked marked =>
    intro c first
    rw [← Option.some.inj first]
    rcases marked with rfl | rfl
    · decide
    · decide

/-! ## Literals -/

/-- What the scanner makes of a mantissa and the text after it. -/
theorem of_scanExponent {negative : Bool} {value : Decimal}
    (scanned : (match scanExponent text with
      | some (exponent, rest) => Scan.number (ofParts negative whole fraction exponent) rest
      | none => .broken) = .number value rest) :
    ∃ power exponent, text = power ++ rest ∧ Power power exponent ∧
      value = ofParts negative whole fraction exponent := by
  split at scanned
  next exponent left read =>
    cases scanned
    obtain ⟨power, same, powers⟩ := scanExponent_sound read
    exact ⟨power, exponent, same, powers, rfl⟩
  next => cases scanned

/-- What is scanned is a literal at the front of the text. -/
theorem scan_sound {value : Decimal} (scanned : scan text = .number value rest) :
    ∃ literal, text = literal ++ rest ∧ Literal literal value := by
  obtain ⟨sign, signed, reads⟩ := scanSign_sound text
  rcases spanned : spanDigits (scanSign text).2 with ⟨whole, left⟩
  obtain ⟨spans, before⟩ := spanDigits_sound spanned
  unfold scan at scanned
  simp only [spanned] at scanned
  rw [signed, spans]
  split at scanned
  next left _ =>
    split at scanned
    next => cases scanned
    next fraction left nonempty spanned =>
      obtain ⟨rfl, after⟩ := spanDigits_sound spanned
      obtain ⟨power, exponent, rfl, powers, rfl⟩ := of_scanExponent scanned
      refine ⟨_, ?_, .parts reads (.point before after (.inr nonempty)) powers⟩
      simp
  next => cases scanned
  next left nonempty =>
    rcases spanned : spanDigits left with ⟨fraction, left⟩
    rw [spanned] at scanned
    obtain ⟨rfl, after⟩ := spanDigits_sound spanned
    obtain ⟨power, exponent, rfl, powers, rfl⟩ := of_scanExponent scanned
    refine ⟨_, ?_, .parts reads (.point before after (.inl nonempty)) powers⟩
    simp
  next nonempty _ _ =>
    obtain ⟨power, exponent, rfl, powers, rfl⟩ := of_scanExponent scanned
    refine ⟨_, ?_, .parts reads (.whole before nonempty) powers⟩
    simp

/-- A mantissa starts with a digit or a point. -/
theorem Mantissa.starts {mantissa : List Char} (digits : Mantissa mantissa whole fraction) :
    ∃ c tail, mantissa = c :: tail ∧ (c.isDigit = true ∨ c = '.') := by
  cases digits with
  | whole run nonempty =>
    obtain ⟨d, whole, rfl⟩ := List.exists_cons_of_ne_nil nonempty
    exact ⟨d, whole, rfl, .inl (run d List.mem_cons_self)⟩
  | point before after nonempty =>
    cases whole with
    | nil => exact ⟨'.', fraction, rfl, .inr rfl⟩
    | cons d whole => exact ⟨d, whole ++ '.' :: fraction, rfl, .inl (before d List.mem_cons_self)⟩

/-- A mantissa does not start with a sign. -/
theorem Mantissa.unsigned {mantissa : List Char} (digits : Mantissa mantissa whole fraction)
    (rest : List Char) : ∀ c, (mantissa ++ rest).head? = some c → c ≠ '-' ∧ c ≠ '+' := by
  obtain ⟨d, tail, rfl, digit | point⟩ := digits.starts
  · intro c first
    rw [← Option.some.inj first]
    exact ne_sign digit
  · intro c first
    rw [← Option.some.inj first, point]
    decide

/-- A literal starts with a sign, a digit or a point. -/
theorem Literal.starts {literal : List Char} {value : Decimal} (written : Literal literal value) :
    ∃ c tail, literal = c :: tail ∧ (c = '+' ∨ c = '-' ∨ c.isDigit = true ∨ c = '.') := by
  cases written with
  | parts signed digits powers =>
    obtain ⟨c, tail, rfl, first⟩ := digits.starts
    cases signed with
    | absent => exact ⟨c, _, rfl, .inr (.inr first)⟩
    | plus => exact ⟨'+', _, rfl, .inl rfl⟩
    | minus => exact ⟨'-', _, rfl, .inr (.inl rfl)⟩

/-- A literal is scanned as a whole where it could not go on. -/
theorem Literal.scanned {literal : List Char} {value : Decimal} (written : Literal literal value)
    (stops : Stops goesOn rest) : scan (literal ++ rest) = .number value rest := by
  cases written with
  | @parts sign mantissa whole fraction power negative exponent signed digits powers =>
    have read := scanSign_append signed (digits.unsigned (power ++ rest))
    have scaled := powers.scanned stops
    have follows := powers.follows stops
    rw [List.append_assoc, List.append_assoc, scan, read]
    cases digits with
    | whole run nonempty =>
      have spanned := spanDigits_append run fun c first => (follows c first).1
      simp only [spanned]
      split
      next => contradiction
      next => contradiction
      next left _ pointed => exact absurd rfl (follows '.' (by rw [pointed]; rfl)).2
      next => simp only [scaled]
    | point before after nonempty =>
      have spanned := spanDigits_append after fun c first => (follows c first).1
      have spanned' : spanDigits (whole ++ '.' :: (fraction ++ (power ++ rest))) =
          (whole, '.' :: (fraction ++ (power ++ rest))) :=
        spanDigits_append before (stops_cons (by decide))
      rw [List.append_assoc, List.cons_append]
      simp only [spanned']
      cases whole with
      | nil =>
        have some_digits := nonempty.resolve_left fun some_whole => some_whole rfl
        obtain ⟨d, fraction, rfl⟩ := List.exists_cons_of_ne_nil some_digits
        simp only [spanned, scaled]
      | cons d whole => simp only [spanned, scaled]

/-- A text that starts with no sign, digit or point starts with no literal. -/
theorem scan_absent {c : Char} (unsigned : c ≠ '-' ∧ c ≠ '+') (point : c ≠ '.')
    (digit : c.isDigit = false) : scan (c :: text) = .absent := by
  have read : scanSign ([] ++ c :: text) = (false, c :: text) :=
    scanSign_append .absent fun d first => Option.some.inj first ▸ unsigned
  have spanned : spanDigits ([] ++ c :: text) = ([], c :: text) :=
    spanDigits_append run_nil (stops_cons digit)
  rw [List.nil_append] at read spanned
  rw [scan, read]
  simp only [spanned]
  split
  next same => exact absurd (List.cons.inj same).1 point
  next => rfl
  next nonempty => exact absurd rfl nonempty
  next nonempty _ _ => exact absurd rfl nonempty

end MapStyle.Decimal
