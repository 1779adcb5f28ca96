import MapStyle.Color.Notation
import MapStyle.Digest
import MapStyle.Text.Quoted

/-!
# Values

What expressions evaluate to and features carry. A value is coerced to a type where
a text may stand for a color and where a number or a truth value becomes a label;
in every other place the types must agree.
-/

namespace MapStyle

/-- The types of expressions and values. -/
inductive ValueType where
  | number
  | boolean
  | color
  | string
  | numberArray
deriving DecidableEq, Repr

namespace ValueType

def all : List ValueType := [number, boolean, color, string, numberArray]

def name : ValueType → String
  | number => "number"
  | boolean => "boolean"
  | color => "color"
  | string => "string"
  | numberArray => "number[]"

def ofName? (name : String) : Option ValueType := all.find? (·.name == name)

/-- The word a type contributes to a digest. -/
def word : ValueType → Word
  | number => .number 0
  | boolean => .number 1
  | color => .number 2
  | string => .number 3
  | numberArray => .number 4

end ValueType

/-- A value over a wide number type and a narrow one for color channels. -/
inductive Value (W N : Type) where
  | boolean (value : Bool)
  | number (value : W)
  | string (value : String)
  | numberArray (items : List W)
  | color (value : Color N)
deriving DecidableEq

/-- The number that stands for a string on the graphics device. Its 24 bits are exact in a
narrow number. -/
def stringId (s : String) : Nat :=
  let hash := s.toUTF8.data.toList.foldl
    (fun (hash : UInt32) byte => (hash ^^^ byte.toUInt32) * 0x01000193) 0x811c9dc5
  hash.toNat % Nat.pow 2 24

namespace Value

variable {W N : Type}

def type : Value W N → ValueType
  | boolean _ => .boolean
  | number _ => .number
  | string _ => .string
  | numberArray _ => .numberArray
  | color _ => .color

def asNumber? : Value W N → Option W
  | number n => some n
  | _ => none

def asBoolean? : Value W N → Option Bool
  | boolean b => some b
  | _ => none

def asString? : Value W N → Option String
  | string s => some s
  | _ => none

def asColor? : Value W N → Option (Color N)
  | color c => some c
  | _ => none

variable [Scalar W] [Scalar N]

/-- Values are equal when they are of one kind and hold equal contents, numbers being compared
as numbers. -/
def equal : Value W N → Value W N → Bool
  | boolean a, boolean b => a == b
  | number a, number b => a == b
  | string a, string b => a == b
  | numberArray a, numberArray b => a == b
  | color a, color b => a == b
  | _, _ => false

instance : BEq (Value W N) := ⟨equal⟩

/-- The zero of a type, which a missing value reads as. -/
def zeroOf : ValueType → Value W N
  | .number => number Scalar.zero
  | .boolean => boolean false
  | .color => color Color.transparent
  | .string => string ""
  | .numberArray => numberArray []

/-- The value as one of another type. Numbers and truth values become strings; strings and lists
of three or four numbers become colors. -/
def coerce? [Precision W N] (value : Value W N) (type : ValueType) : Option (Value W N) :=
  match value, type with
  | number n, .string => some (string (Scalar.text n))
  | boolean b, .string => some (string (if b then "true" else "false"))
  | string s, .color => (Color.ofText? W s).map color
  | numberArray items, .color => (Color.ofComponents? items).map color
  | value, type => if value.type = type then some value else none

/-- The text that shows a value. -/
def text : Value W N → String
  | boolean b => if b then "true" else "false"
  | number n => Scalar.text n
  | string s => Text.quoted s
  | numberArray items => "[" ++ ", ".intercalate (items.map Scalar.literal) ++ "]"
  | color c => c.text

/-! ## Digests -/

/-- The bit pattern of a number, one for both zeros. -/
def numberWord (n : W) : Word := .number (if n == Scalar.zero then 0 else Scalar.code n)

/-- What a value contributes to a digest. -/
def words : Value W N → List Word
  | boolean b => [.number 0, .ofBool b]
  | number n => [.number 1, numberWord n]
  | string s => .number 2 :: Word.ofString s
  | numberArray items => .number 3 :: .number items.length :: items.map numberWord
  | color c => [.number 4, .number 4, .bytes (c.bytes.map UInt8.ofNat)]

end Value

end MapStyle
