import MapStyle.Color.Basic
import MapStyle.Text.Blank

/-!
# Color notations

A color is written as `#` and hexadecimal digits, as `rgb` or `rgba` with channels
between parentheses, or by name. White space around the notation is dropped; inside
the parentheses blanks may surround every number.
-/

namespace MapStyle.Color

variable {W N : Type} [Scalar W] [Scalar N] [Precision W N]

/-! ## Hexadecimal digits -/

/-- The color of 3, 4, 6 or 8 hexadecimal digits. A single digit stands for the byte that
repeats it, and a missing alpha is opaque. -/
def ofHexDigits? (digits : List Char) : Option (Color N) :=
  let nibble (c : Char) : Nat := 17 * Text.hexValue c
  let byte (high low : Char) : Nat := Text.hexNatural [high, low]
  match digits with
  | [r, g, b] => some (ofBytes (nibble r) (nibble g) (nibble b) 255)
  | [r, g, b, a] => some (ofBytes (nibble r) (nibble g) (nibble b) (nibble a))
  | [r₁, r₂, g₁, g₂, b₁, b₂] => some (ofBytes (byte r₁ r₂) (byte g₁ g₂) (byte b₁ b₂) 255)
  | [r₁, r₂, g₁, g₂, b₁, b₂, a₁, a₂] =>
    some (ofBytes (byte r₁ r₂) (byte g₁ g₂) (byte b₁ b₂) (byte a₁ a₂))
  | _ => none

/-- The color of a text after `#`. -/
def ofHex? (text : List Char) : Option (Color N) :=
  if text.all Text.isHexDigit then ofHexDigits? text else none

/-! ## Channels -/

/-- Whether a text starts with a word in lower case, whatever the case of the text. -/
def dropWord? : List Char → List Char → Option (List Char)
  | [], text => some text
  | c :: word, d :: text => if d.toLower = c then dropWord? word text else none
  | _ :: _, [] => none

/-- Read a channel from the front of a text: a decimal number, `nan` or `inf`. -/
def readChannel (text : List Char) : Option (W × List Char) :=
  match Decimal.scan text with
  | .number value rest => some (Scalar.ofDecimal value, rest)
  | .broken => none
  | .absent =>
    match dropWord? ['n', 'a', 'n'] text with
    | some rest => some (Scalar.undefined, rest)
    | none => (dropWord? ['i', 'n', 'f'] text).map (Scalar.infinity, ·)

/-- Read channels separated by commas up to the closing parenthesis, at most `fuel` of them. -/
def readChannels : (fuel : Nat) → List Char → Option (List W × List Char)
  | 0, _ => none
  | fuel + 1, text =>
    match readChannel (Text.skipBlanks text) with
    | none => none
    | some (channel, rest) =>
      match Text.skipBlanks rest with
      | ',' :: rest =>
        (readChannels fuel rest).map fun (channels, rest) => (channel :: channels, rest)
      | ')' :: rest => some ([channel], rest)
      | _ => none

/-- The text after the function name of the functional notation. -/
def dropFunction? (text : List Char) : Option (List Char) :=
  match dropWord? ['r', 'g', 'b', 'a'] text with
  | some rest => some rest
  | none => dropWord? ['r', 'g', 'b'] text

/-- The color of the functional notation. -/
def ofFunction? (text : List Char) : Option (Color N) :=
  match dropFunction? text with
  | none => none
  | some rest =>
    match Text.skipBlanks rest with
    | '(' :: rest =>
      match readChannels (W := W) rest.length rest with
      | some (channels, []) => ofComponents? channels
      | _ => none
    | _ => none

/-! ## Names -/

/-- The colors that have a name. -/
def named : List (String × Color N) := [
  ("black", black),
  ("white", ⟨Scalar.one, Scalar.one, Scalar.one, Scalar.one⟩),
  ("red", ⟨Scalar.one, Scalar.zero, Scalar.zero, Scalar.one⟩),
  ("green", ofBytes 0 128 0 255),
  ("blue", ofBytes 0 0 255 255),
  ("yellow", ofBytes 255 255 0 255),
  ("gray", ofBytes 128 128 128 255),
  ("grey", ofBytes 128 128 128 255),
  ("transparent", transparent)]

/-- The color of a name in any case. -/
def ofName? (text : List Char) : Option (Color N) :=
  named.lookup (String.ofList (text.map Char.toLower))

/-- The color a text denotes. -/
def ofText? (W : Type) [Scalar W] [Precision W N] (text : String) : Option (Color N) :=
  let text := Text.trim text.toList
  match text with
  | '#' :: digits => ofHex? digits
  | _ =>
    match ofFunction? (W := W) text with
    | some color => some color
    | none => ofName? text

end MapStyle.Color
