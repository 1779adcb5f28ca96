import MapStyle.Text.Hex
import MapStyle.Toml.Basic

/-!
# Reading TOML texts

A text is a sequence of lines, each with a header, a binding of a dotted key or
nothing, and perhaps a comment. Every step of the reader consumes characters, so fuel
beyond the length of the text is never used up.
-/

namespace MapStyle.Toml

/-- What a step found and the text after it. -/
abbrev Step (α : Type) := Option (α × List Char)

/-! ## Blanks and ends of lines -/

def isSpace (c : Char) : Bool := c == ' ' || c == '\t'

def skipSpaces (text : List Char) : List Char := text.dropWhile isSpace

/-- Whether a character may stand in a comment or a string as it is. -/
def isPlain (c : Char) : Bool := c == '\t' || !isControl c

/-- Drop a comment, if there is one. -/
def skipComment : List Char → List Char
  | '#' :: rest => rest.dropWhile isPlain
  | text => text

/-- Drop the end of a line. -/
def endLine? : List Char → Option (List Char)
  | '\n' :: rest | '\r' :: '\n' :: rest => some rest
  | _ => none

/-- Drop what may follow the contents of a line, with the end of the line or of the text. -/
def finishLine? (text : List Char) : Option (List Char) :=
  match skipComment (skipSpaces text) with
  | [] => some []
  | rest => endLine? rest

/-- Drop spaces, comments and ends of lines. -/
def skipLines : (fuel : Nat) → List Char → List Char
  | 0, text => text
  | fuel + 1, text =>
    let rest := skipComment (skipSpaces text)
    match endLine? rest with
    | some rest => skipLines fuel rest
    | none => rest

/-! ## Strings -/

/-- The character that a one-letter escape stands for. -/
def escaped? : Char → Option Char
  | 'b' => some '\x08'
  | 't' => some '\t'
  | 'n' => some '\n'
  | 'f' => some '\x0c'
  | 'r' => some '\r'
  | '"' => some '"'
  | '\\' => some '\\'
  | _ => none

/-- The character with a code point, unless it is half of a surrogate pair or too great. -/
def character? (digits : List Char) : Option Char :=
  let point := Text.hexNatural digits
  if digits.all Text.isHexDigit && point.isValidChar then some (Char.ofNat point) else none

/-- Read an escape after its backslash. -/
def readEscape : List Char → Step Char
  | 'u' :: a :: b :: c :: d :: rest => (character? [a, b, c, d]).map (·, rest)
  | 'U' :: a :: b :: c :: d :: e :: f :: g :: h :: rest =>
    (character? [a, b, c, d, e, f, g, h]).map (·, rest)
  | c :: rest => (escaped? c).map (·, rest)
  | [] => none

/-- Read a string with escapes on one line, after its opening quote. -/
def readBasic : (fuel : Nat) → List Char → List Char → Step String
  | 0, _, _ => none
  | _ + 1, read, '"' :: rest => some (String.ofList read.reverse, rest)
  | fuel + 1, read, '\\' :: rest =>
    match readEscape rest with
    | some (c, rest) => readBasic fuel (c :: read) rest
    | none => none
  | fuel + 1, read, c :: rest => if isPlain c then readBasic fuel (c :: read) rest else none
  | _ + 1, _, [] => none

/-- Read a string without escapes on one line, after its opening quote. -/
def readLiteral (text : List Char) : Step String :=
  match text.span (fun c => isPlain c && c != '\'') with
  | (read, '\'' :: rest) => some (String.ofList read, rest)
  | _ => none

/-- Drop the line feed right after the opening quotes of a string on several lines. -/
def skipFirstLineEnd (text : List Char) : List Char := (endLine? text).getD text

/-- Drop spaces and ends of lines. -/
def skipBlankLines : (fuel : Nat) → List Char → List Char
  | 0, text => text
  | fuel + 1, text =>
    let rest := skipSpaces text
    match endLine? rest with
    | some rest => skipBlankLines fuel rest
    | none => rest

/-- Read a string on several lines after its opening quotes. Up to two quotes may stand right
ahead of the closing ones. A backslash at the end of a line drops the blanks up to the next
character. -/
def readLinesOf (quote : Char) (hasEscapes : Bool) :
    (fuel : Nat) → List Char → List Char → Step String
  | 0, _, _ => none
  | fuel + 1, read, text =>
    match text.span (· == quote) with
    | ([], '\r' :: '\n' :: rest) | ([], '\n' :: rest) =>
      readLinesOf quote hasEscapes fuel ('\n' :: read) rest
    | ([], c :: rest) =>
      if hasEscapes && c == '\\' then
        match endLine? (skipSpaces rest) with
        | some rest => readLinesOf quote hasEscapes fuel read (skipBlankLines fuel rest)
        | none =>
          match readEscape rest with
          | some (c, rest) => readLinesOf quote hasEscapes fuel (c :: read) rest
          | none => none
      else if isPlain c then readLinesOf quote hasEscapes fuel (c :: read) rest
      else none
    | ([], []) => none
    | (quotes, rest) =>
      if quotes.length < 3 then readLinesOf quote hasEscapes fuel (quotes ++ read) rest
      else if quotes.length ≤ 5 then some (String.ofList (read.reverse ++ quotes.drop 3), rest)
      else none

/-- Read a string in one of the four forms. -/
def readString (text : List Char) : Step String :=
  let fuel := text.length + 1
  match text with
  | '"' :: '"' :: '"' :: rest => readLinesOf '"' true fuel [] (skipFirstLineEnd rest)
  | '\'' :: '\'' :: '\'' :: rest => readLinesOf '\'' false fuel [] (skipFirstLineEnd rest)
  | '"' :: rest => readBasic fuel [] rest
  | '\'' :: rest => readLiteral rest
  | _ => none

/-! ## Keys -/

def isBareKey (c : Char) : Bool := c.isAlphanum || c == '_' || c == '-'

/-- Read one part of a key. -/
def readKeyPart (text : List Char) : Step String :=
  match text with
  | '"' :: rest => readBasic (text.length + 1) [] rest
  | '\'' :: rest => readLiteral rest
  | _ =>
    match text.span isBareKey with
    | ([], _) => none
    | (name, rest) => some (String.ofList name, rest)

/-- The number of brackets that may stand around a value, and of parts that a key may have. -/
def nestingLimit : Nat := 79

/-- Read the parts of a dotted key: those ahead of the last one, and the last one. -/
def readKeyParts : (fuel : Nat) → List Char → Step (List String × String)
  | 0, _ => none
  | fuel + 1, text =>
    match readKeyPart (skipSpaces text) with
    | none => none
    | some (name, rest) =>
      match skipSpaces rest with
      | '.' :: rest =>
        (readKeyParts fuel rest).map fun ((path, last), rest) => ((name :: path, last), rest)
      | rest => some (([], name), rest)

/-- Read a dotted key of no more parts than the limit. -/
def readKey (text : List Char) : Step (List String × String) :=
  (readKeyParts (text.length + 1) text).filter fun ((path, _), _) => path.length < nestingLimit

/-! ## Numbers, dates and times -/

/-- Digits with underscores between them, without the underscores. -/
def digits? (isDigit : Char → Bool) (text : List Char) : Option (List Char) :=
  let groups := (text.splitOn '_')
  if groups.all fun group => !group.isEmpty && group.all isDigit then some groups.flatten else none

/-- Decimal digits without a leading zero. -/
def wholeDigits? (text : List Char) : Option (List Char) := do
  let digits ← digits? Char.isDigit text
  if digits.head? = some '0' ∧ digits.length > 1 then none else some digits

/-- An integer of 64 bits. -/
def integerOf? (n : Int) : Option Toml :=
  if Int64.minValue.toInt ≤ n ∧ n ≤ Int64.maxValue.toInt then some (.integer n) else none

/-- An integer in a base of a power of two. -/
def basedInteger? (base : Nat) (text : List Char) : Option Toml := do
  let digits ← digits? (fun c => Text.isHexDigit c && Text.hexValue c < base) text
  integerOf? (digits.foldl (fun (n : Nat) c => base * n + Text.hexValue c) 0 : Nat)

/-- A number with a fraction or an exponent. -/
def realOf? (negative : Bool) (whole : List Char) (fraction : Option (List Char))
    (exponent : Int) : Option Toml :=
  let x : Double := Binary.ofDecimal (Decimal.ofParts negative whole (fraction.getD []) exponent)
  if x == Binary.infinity false then none else some (.float x)

/-- An exponent after its letter. -/
def exponent? (text : List Char) : Option Int := do
  let (negative, text) := Decimal.scanSign text
  let magnitude : Int := Decimal.naturalOf (← digits? Char.isDigit text)
  return if negative then -magnitude else magnitude

/-- A decimal number after its sign. -/
def decimal? (negative : Bool) (text : List Char) : Option Toml := do
  let isLetter (c : Char) : Bool := c == 'e' || c == 'E'
  let (mantissa, scale) := text.span fun c => !isLetter c
  let (whole, fraction) := mantissa.span (· != '.')
  let whole ← wholeDigits? whole
  match fraction, scale with
  | [], [] =>
    let n : Int := Decimal.naturalOf whole
    integerOf? (if negative then -n else n)
  | [], _ :: scale => realOf? negative whole none (← exponent? scale)
  | _ :: fraction, [] => realOf? negative whole (← digits? Char.isDigit fraction) 0
  | _ :: fraction, _ :: scale =>
    realOf? negative whole (← digits? Char.isDigit fraction) (← exponent? scale)

/-- A number. -/
def number? (text : List Char) : Option Toml :=
  match text with
  | '0' :: 'x' :: digits => basedInteger? 16 digits
  | '0' :: 'o' :: digits => basedInteger? 8 digits
  | '0' :: 'b' :: digits => basedInteger? 2 digits
  | _ =>
    let (negative, unsigned) := Decimal.scanSign text
    if unsigned = "inf".toList then some (.float (Binary.infinity negative))
    else if unsigned = "nan".toList then some (.float Binary.nan)
    else decimal? negative unsigned

/-- A natural number of two digits up to a limit. -/
def isTwoDigits (least most : Nat) (a b : Char) : Bool :=
  let n := Decimal.naturalOf [a, b]
  a.isDigit && b.isDigit && least ≤ n && n ≤ most

/-- The days of a month. -/
def daysOf (year month : Nat) : Nat :=
  if month = 2 then if year % 4 = 0 ∧ (year % 100 ≠ 0 ∨ year % 400 = 0) then 29 else 28
  else if [4, 6, 9, 11].contains month then 30
  else 31

/-- Read a date. -/
def readDate : List Char → Option (List Char)
  | a :: b :: c :: d :: '-' :: m :: n :: '-' :: x :: y :: rest =>
    let year := Decimal.naturalOf [a, b, c, d]
    let month := Decimal.naturalOf [m, n]
    if [a, b, c, d].all Char.isDigit && isTwoDigits 1 12 m n &&
        isTwoDigits 1 (daysOf year month) x y then some rest
    else none
  | _ => none

/-- Read a time of day. -/
def readTime : List Char → Option (List Char)
  | a :: b :: ':' :: c :: d :: ':' :: e :: f :: rest =>
    if isTwoDigits 0 23 a b && isTwoDigits 0 59 c d && isTwoDigits 0 60 e f then
      match rest with
      | '.' :: rest =>
        match rest.span Char.isDigit with
        | ([], _) => none
        | (_, rest) => some rest
      | rest => some rest
    else none
  | _ => none

/-- Whether a text is the distance of a time zone, or empty. -/
def isZone : List Char → Bool
  | [] | ['Z'] | ['z'] => true
  | [sign, a, b, ':', c, d] =>
    (sign == '+' || sign == '-') && isTwoDigits 0 23 a b && isTwoDigits 0 59 c d
  | _ => false

/-- Whether a text is a date, a time or both. -/
def isMoment (text : List Char) : Bool :=
  match readDate text with
  | some [] => true
  | some (mark :: rest) =>
    (mark == 'T' || mark == 't' || mark == ' ') && (readTime rest).any isZone
  | none => (readTime text).any List.isEmpty

/-- The characters of truth values, numbers, dates and times. -/
def isWordPart (c : Char) : Bool :=
  c.isAlphanum || c == '_' || c == '+' || c == '-' || c == '.' || c == ':'

/-- The value that a word stands for. -/
def word? (word : List Char) : Option Toml :=
  if word = "true".toList then some (.boolean true)
  else if word = "false".toList then some (.boolean false)
  else if isMoment word then some (.time (String.ofList word))
  else number? word

/-- Read a truth value, a number, a date or a time. A date and a time may be two words. -/
def readWord (text : List Char) : Step Toml :=
  let (word, rest) := text.span isWordPart
  match readDate word, rest with
  | some [], ' ' :: next :: more =>
    if next.isDigit then
      let (clock, rest) := (next :: more).span isWordPart
      (word? (word ++ ' ' :: clock)).map (·, rest)
    else (word? word).map (·, rest)
  | _, _ => (word? word).map (·, rest)

/-! ## Values -/

mutual

/-- Read a value that may hold so many brackets within one another. -/
def readValue : (fuel room : Nat) → List Char → Step Toml
  | 0, _, _ => none
  | fuel + 1, room, text =>
    match text, room with
    | '[' :: rest, room + 1 => readItems fuel room [] rest
    | '\x7b' :: rest, room + 1 =>
      match skipSpaces rest with
      | '\x7d' :: rest => some (table .braces [], rest)
      | rest => readBindings fuel room [] rest
    | '"' :: _, _ | '\'' :: _, _ => (readString text).map fun (s, rest) => (string s, rest)
    | _, _ => readWord text

/-- Read the items of an array and its end. -/
def readItems : (fuel room : Nat) → List Toml → List Char → Step Toml
  | 0, _, _, _ => none
  | fuel + 1, room, items, text =>
    match skipLines (text.length + 1) text with
    | ']' :: rest => some (array items.reverse, rest)
    | text =>
      match readValue fuel room text with
      | none => none
      | some (item, rest) =>
        match skipLines (rest.length + 1) rest with
        | ',' :: rest => readItems fuel room (item :: items) rest
        | ']' :: rest => some (array (item :: items).reverse, rest)
        | _ => none

/-- Read the bindings of a table in braces, at least one, and its end. -/
def readBindings : (fuel room : Nat) → Entries → List Char → Step Toml
  | 0, _, _, _ => none
  | fuel + 1, room, entries, text =>
    match readBinding fuel room text with
    | none => none
    | some (((path, name), value), rest) =>
      match bind path name value .braces entries with
      | none => none
      | some entries =>
        match skipSpaces rest with
        | ',' :: rest => readBindings fuel room entries rest
        | '\x7d' :: rest => some (table .braces entries, rest)
        | _ => none

/-- Read a binding: a key, an equals sign and a value. -/
def readBinding : (fuel room : Nat) → List Char → Step ((List String × String) × Toml)
  | 0, _, _ => none
  | fuel + 1, room, text =>
    match readKey text with
    | some (key, '=' :: rest) =>
      (readValue fuel room (skipSpaces rest)).map fun (value, rest) => ((key, value), rest)
    | _ => none

end

/-! ## Documents -/

/-- Read the key of a header and the brackets after it. -/
def readHeader (brackets : List Char) (text : List Char) : Step (List String × String) :=
  match readKey text with
  | some (key, rest) =>
    if brackets.isPrefixOf rest then some (key, rest.drop brackets.length) else none
  | none => none

/-- Read the lines of a text. Bindings go into the table at `place`. -/
def readDocument : (fuel : Nat) → (place : List String) → Entries → List Char → Option Entries
  | 0, _, _, _ => none
  | fuel + 1, place, root, text =>
    match skipLines (text.length + 1) text with
    | [] => some root
    | '[' :: '[' :: rest => do
      let ((path, name), rest) ← readHeader [']', ']'] rest
      readDocument fuel (path ++ [name]) (← openItem path name root) (← finishLine? rest)
    | '[' :: rest => do
      let ((path, name), rest) ← readHeader [']'] rest
      readDocument fuel (path ++ [name]) (← openTable path name root) (← finishLine? rest)
    | text => do
      let (((path, name), value), rest) ← readBinding (text.length + 1) nestingLimit text
      let root ← changeAt .implied (bind path name value) place .header root
      readDocument fuel place root (← finishLine? rest)

/-- Drop a mark of the byte order. -/
def skipMark : List Char → List Char
  | '\ufeff' :: rest => rest
  | text => text

/-- Read a text as a table. -/
def ofText? (text : String) : Option Toml :=
  let chars := skipMark text.toList
  (readDocument (chars.length + 1) [] [] chars).map (table .header)

end MapStyle.Toml
