import MapStyle.Value

/-!
# Host callbacks

A style may call functions of its host by name. A registry numbers them in order of
registration; registering a name again replaces the function and keeps the number.
Functions cannot be compared, so every registration has a serial that stands for its
function.
-/

namespace MapStyle

/-- The properties of a feature. -/
abbrev Properties (W N : Type) := String → Option (Value W N)

/-- The properties of no feature. -/
def noProperties {W N : Type} : Properties W N := fun _ => none

/-- A registered callback. -/
structure External (W N : Type) where
  name : String
  type : ValueType
  call : Properties W N → Value W N
  serial : Nat

namespace External

variable {W N : Type}

/-- What a callback contributes to a digest. -/
def words (e : External W N) : List Word :=
  Word.ofString e.name ++ [e.type.word, .number e.serial]

end External

/-- The callbacks of a style, in the order of their numbers. -/
structure Registry (W N : Type) where
  entries : List (External W N)

namespace Registry

variable {W N : Type}

def empty : Registry W N := ⟨[]⟩

/-- The number of the callback with a name. -/
def find? (r : Registry W N) (name : String) : Option Nat :=
  r.entries.findIdx? (·.name == name)

/-- The callback with a number. -/
def get? (r : Registry W N) (id : Nat) : Option (External W N) := r.entries[id]?

/-- The number and the type of the callback with a name. -/
def lookup? (r : Registry W N) (name : String) : Option (Nat × ValueType) := do
  let id ← r.find? name
  let entry ← r.get? id
  return (id, entry.type)

/-- Register a callback under its name and tell its number. -/
def register (r : Registry W N) (entry : External W N) : Registry W N × Nat :=
  match r.find? entry.name with
  | some id => (⟨r.entries.set id entry⟩, id)
  | none => (⟨r.entries ++ [entry]⟩, r.entries.length)

/-- What a registry contributes to a digest. -/
def words (r : Registry W N) : List Word := r.entries.flatMap External.words

/-- The text that shows a registry: the name and the type of every callback. -/
def text (r : Registry W N) : String :=
  let typeText : ValueType → String
    | .number => "Number"
    | .boolean => "Boolean"
    | .color => "Color"
    | .string => "String"
    | .numberArray => "NumberArray"
  let entry (e : External W N) : String := s!"({Text.quoted e.name}, {typeText e.type})"
  "[" ++ ", ".intercalate (r.entries.map entry) ++ "]"

end Registry

end MapStyle
