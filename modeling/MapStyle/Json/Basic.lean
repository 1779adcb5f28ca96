import MapStyle.Number.Machine
import MapStyle.Dictionary
import MapStyle.Text.Hex

/-!
# JSON values

A value of the data format in which styles are written. Integers that fit 64 bits
stay integers; every other number is a finite decimal. The members of an object
read from a text are in ascending order of their names.
-/

namespace MapStyle

/-- A number of a JSON text. -/
inductive Json.Number where
  | integer (value : Int)
  | real (value : Decimal)
deriving DecidableEq

/-- A JSON value. -/
inductive Json where
  | null
  | bool (value : Bool)
  | number (value : Json.Number)
  | string (value : String)
  | array (items : List Json)
  | object (members : List (String × Json))

namespace Json

instance : Inhabited Json := ⟨null⟩

/-- The number as an exact decimal. -/
def Number.decimal : Number → Decimal
  | integer value => Decimal.ofInt value
  | real value => value

/-- The number as a floating-point text would give it. -/
def Number.toScalar {α : Type} [Scalar α] (n : Number) : α := Scalar.ofDecimal n.decimal

/-- The value of a number. -/
def number? {α : Type} [Scalar α] : Json → Option α
  | number n => some n.toScalar
  | _ => none

/-- The items of a list whose items are all numbers. -/
def numbers? {α : Type} [Scalar α] (items : List Json) : Option (List α) :=
  items.mapM number?

/-! ## Writing -/

/-- One character between the quotes of a JSON string. -/
def escape (c : Char) : List Char :=
  match c with
  | '"' => ['\\', '"']
  | '\\' => ['\\', '\\']
  | '\n' => ['\\', 'n']
  | '\r' => ['\\', 'r']
  | '\t' => ['\\', 't']
  | '\x08' => ['\\', 'b']
  | '\x0c' => ['\\', 'f']
  | c => if c.toNat < 0x20 then ['\\', 'u'] ++ Text.hexDigits 4 c.toNat else [c]

/-- A string with its quotes. -/
def quote (s : String) : String := String.ofList ('"' :: s.toList.flatMap escape ++ ['"'])

/-- The text of a number; a decimal reads back as the same double. -/
def Number.render : Number → String
  | integer value => toString value
  | real value => (Binary.ofDecimal value : Double).literal

mutual

/-- Append the text of a value. -/
def write (out : String) : Json → String
  | null => out ++ "null"
  | bool b => out ++ if b then "true" else "false"
  | number n => out ++ n.render
  | string s => out ++ quote s
  | array items => writeItems (out.push '[') "" items
  | object members => writeMembers (out.push '\x7b') "" members

/-- Append the items of an array and its end; `separator` goes before the first of them. -/
def writeItems (out separator : String) : List Json → String
  | [] => out.push ']'
  | item :: rest => writeItems (write (out ++ separator) item) "," rest

/-- Append the members of an object and its end. -/
def writeMembers (out separator : String) : List (String × Json) → String
  | [] => out.push '\x7d'
  | (name, value) :: rest =>
    writeMembers (write ((out ++ separator ++ quote name).push ':') value) "," rest

end

/-- The text of a value, without blanks. -/
def render (json : Json) : String := write "" json

end Json

end MapStyle
