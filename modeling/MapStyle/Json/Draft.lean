import MapStyle.Json.Basic
import MapStyle.Text.Blank

/-!
# Reading JSON texts

Reading has two stages. A draft follows the grammar of the format and nothing more:
its numbers may be out of range, its strings may hold half of a surrogate pair, and
it may nest to any depth. A draft is then either checked as a whole, which gives a
value, or read member by member by a reader that passes over members it does not
know without looking at them.
-/

namespace MapStyle.Json

/-- A JSON text as it stands. A string is absent when it is not a sequence of characters. -/
inductive Draft where
  | null
  | bool (value : Bool)
  | number (value : Number)
  | string (value : Option String)
  | array (items : List Draft)
  | object (members : List (Option String × Draft))

namespace Draft

/-! ## Strings -/

/-- Whether a code unit opens a surrogate pair. -/
def isLeading (unit : Nat) : Bool := 0xd800 ≤ unit && unit < 0xdc00

/-- Whether a code unit closes a surrogate pair. -/
def isTrailing (unit : Nat) : Bool := 0xdc00 ≤ unit && unit < 0xe000

/-- Join surrogate pairs; a lone surrogate is no character. -/
def joinPairs : List Nat → Option (List Char)
  | [] => some []
  | unit :: rest =>
    if isTrailing unit then none
    else if isLeading unit then
      match rest with
      | [] => none
      | next :: rest =>
        if isTrailing next then
          let point := 0x10000 + (unit - 0xd800) * 0x400 + (next - 0xdc00)
          (joinPairs rest).map (Char.ofNat point :: ·)
        else none
    else (joinPairs rest).map (Char.ofNat unit :: ·)

/-- The character a one-letter escape stands for. -/
def escaped? : Char → Option Nat
  | '"' => some 0x22
  | '\\' => some 0x5c
  | '/' => some 0x2f
  | 'b' => some 0x08
  | 'f' => some 0x0c
  | 'n' => some 0x0a
  | 'r' => some 0x0d
  | 't' => some 0x09
  | _ => none

/-- Read the rest of a string after its opening quote: its units, last first, and what follows
the closing quote. -/
def readUnits (units : List Nat) : List Char → Option (List Nat × List Char)
  | [] => none
  | '"' :: rest => some (units, rest)
  | '\\' :: 'u' :: a :: b :: c :: d :: rest =>
    if [a, b, c, d].all Text.isHexDigit then
      readUnits (Text.hexNatural [a, b, c, d] :: units) rest
    else none
  | '\\' :: c :: rest =>
    match escaped? c with
    | some unit => readUnits (unit :: units) rest
    | none => none
  | c :: rest => if c.toNat < 0x20 then none else readUnits (c.toNat :: units) rest

/-- Read a string after its opening quote. -/
def readString (text : List Char) : Option (Option String × List Char) :=
  (readUnits [] text).map fun (units, rest) =>
    ((joinPairs units.reverse).map String.ofList, rest)

/-! ## Numbers -/

/-- The number with the given parts. A negative zero is no integer. -/
def numberOf (negative : Bool) (whole : List Char) (fraction : Option (List Char))
    (exponent : Option Int) : Number :=
  let value := Decimal.ofParts negative whole (fraction.getD []) (exponent.getD 0)
  let n : Int := if negative then -value.digits else value.digits
  if fraction.isNone ∧ exponent.isNone ∧ ¬(negative ∧ value.digits = 0) ∧
      Int64.minValue.toInt ≤ n ∧ n < UInt64.size then .integer n
  else .real value

/-- A fraction, if the text starts with a point. -/
def readFraction (text : List Char) : Option (Option (List Char) × List Char) :=
  match text with
  | '.' :: rest =>
    match Decimal.spanDigits rest with
    | ([], _) => none
    | (digits, rest) => some (some digits, rest)
  | _ => some (none, text)

/-- An exponent, if the text starts with `e`. -/
def readExponent (text : List Char) : Option (Option Int × List Char) :=
  match text with
  | 'e' :: _ | 'E' :: _ => (Decimal.scanExponent text).map fun (n, rest) => (some n, rest)
  | _ => some (none, text)

/-- Read a number: no leading zeros, and digits on both sides of a point. -/
def readNumber (text : List Char) : Option (Number × List Char) :=
  let (negative, unsigned) : Bool × List Char :=
    match text with
    | '-' :: rest => (true, rest)
    | _ => (false, text)
  match Decimal.spanDigits unsigned with
  | ([], _) => none
  | (whole, rest) =>
    if whole.head? = some '0' ∧ whole.length > 1 then none
    else do
      let (fraction, rest) ← readFraction rest
      let (exponent, rest) ← readExponent rest
      some (numberOf negative whole fraction exponent, rest)

/-! ## Values -/

/-- Drop a word from the front of a text. -/
def dropWord? : List Char → List Char → Option (List Char)
  | [], text => some text
  | c :: word, d :: text => if c = d then dropWord? word text else none
  | _ :: _, [] => none

mutual

/-- Read a value from the front of a text. Every step consumes a character, so fuel beyond the
length of the text is never used up. -/
def readValue : (fuel : Nat) → List Char → Option (Draft × List Char)
  | 0, _ => none
  | fuel + 1, text =>
    match Text.skipBlanks text with
    | 'n' :: rest => (dropWord? ['u', 'l', 'l'] rest).map (null, ·)
    | 't' :: rest => (dropWord? ['r', 'u', 'e'] rest).map (bool true, ·)
    | 'f' :: rest => (dropWord? ['a', 'l', 's', 'e'] rest).map (bool false, ·)
    | '"' :: rest => (readString rest).map fun (s, rest) => (string s, rest)
    | '[' :: rest =>
      match Text.skipBlanks rest with
      | ']' :: rest => some (array [], rest)
      | rest => readItems fuel [] rest
    | '\x7b' :: rest =>
      match Text.skipBlanks rest with
      | '\x7d' :: rest => some (object [], rest)
      | rest => readMembers fuel [] rest
    | rest => (readNumber rest).map fun (n, rest) => (number n, rest)

/-- Read the items of an array, at least one, and its end. -/
def readItems : (fuel : Nat) → List Draft → List Char → Option (Draft × List Char)
  | 0, _, _ => none
  | fuel + 1, items, text =>
    match readValue fuel text with
    | none => none
    | some (item, rest) =>
      match Text.skipBlanks rest with
      | ',' :: rest => readItems fuel (item :: items) rest
      | ']' :: rest => some (array (item :: items).reverse, rest)
      | _ => none

/-- Read the members of an object, at least one, and its end. -/
def readMembers : (fuel : Nat) → List (Option String × Draft) → List Char →
    Option (Draft × List Char)
  | 0, _, _ => none
  | fuel + 1, members, text =>
    match Text.skipBlanks text with
    | '"' :: rest =>
      match readString rest with
      | none => none
      | some (name, rest) =>
        match Text.skipBlanks rest with
        | ':' :: rest =>
          match readValue fuel rest with
          | none => none
          | some (value, rest) =>
            match Text.skipBlanks rest with
            | ',' :: rest => readMembers fuel ((name, value) :: members) rest
            | '\x7d' :: rest => some (object ((name, value) :: members).reverse, rest)
            | _ => none
        | _ => none
    | _ => none

end

/-- Read a whole text as one value. -/
def ofText? (text : String) : Option Draft :=
  let chars := text.toList
  match readValue (chars.length + 1) chars with
  | some (draft, rest) => if (Text.skipBlanks rest).isEmpty then some draft else none
  | none => none

/-! ## Checking -/

mutual

/-- The number of arrays and objects around the innermost value. -/
def depth : Draft → Nat
  | array items => depthOfItems items + 1
  | object members => depthOfMembers members + 1
  | _ => 0

/-- The greatest depth of some items. -/
def depthOfItems : List Draft → Nat
  | [] => 0
  | item :: rest => max (depth item) (depthOfItems rest)

/-- The greatest depth of some members. -/
def depthOfMembers : List (Option String × Draft) → Nat
  | [] => 0
  | (_, value) :: rest => max (depth value) (depthOfMembers rest)

end

/-- Whether a double can hold a number. -/
def inRange : Number → Bool
  | .integer _ => true
  | .real value => (Binary.ofDecimal value : Double).isFinite

mutual

/-- The value of a draft whose numbers are in range and whose strings are texts. Of members with
the same name the last one counts. -/
def check? : Draft → Option Json
  | null => some .null
  | bool b => some (.bool b)
  | number n => if inRange n then some (.number n) else none
  | string s => s.map .string
  | array items => (checkItems? items).map .array
  | object members =>
    (checkMembers? members).map fun members => .object (Dictionary.ofList members).entries

/-- The values of all items. -/
def checkItems? : List Draft → Option (List Json)
  | [] => some []
  | item :: rest => do return (← check? item) :: (← checkItems? rest)

/-- The values of all members. -/
def checkMembers? : List (Option String × Draft) → Option (List (String × Json))
  | [] => some []
  | (name, value) :: rest => do return (← name, ← check? value) :: (← checkMembers? rest)

end

/-- How deep a checked text may nest. -/
def depthLimit : Nat := 127

end Draft

/-- Read and check a whole text. -/
def ofText? (text : String) : Option Json :=
  match Draft.ofText? text with
  | some draft => if draft.depth ≤ Draft.depthLimit then draft.check? else none
  | none => none

end MapStyle.Json
