import MapStyle.Json.Basic
import MapStyle.Value

/-!
# Feature schemas

A schema declares the type of feature properties and, for numbers, the range of
their values. It is read from the declarations in a style.
-/

namespace MapStyle

/-- The declaration of one feature property. -/
structure Declaration (W : Type) where
  type : ValueType
  minimum : Option W
  maximum : Option W

namespace Declaration

variable {W : Type} [Scalar W]

/-- Declarations are equal when their types and the ends of their ranges are. -/
instance : BEq (Declaration W) :=
  ⟨fun d e => d.type == e.type && d.minimum == e.minimum && d.maximum == e.maximum⟩

/-- The declared range, when both ends are declared and in order. -/
def bounds? (d : Declaration W) : Option (W × W) :=
  match d.minimum, d.maximum with
  | some low, some high => if Scalar.lt low high then some (low, high) else none
  | _, _ => none

/-- A type is named by a string, or by the single member of an object whose value is null. -/
def typeOfJson? : Json → Option ValueType
  | .string name => ValueType.ofName? name
  | .object [(name, .null)] => ValueType.ofName? name
  | _ => none

/-- One end of a range; null declares none. -/
def boundOfJson? : Json → Option (Option W)
  | .null => some none
  | .number n => some (some n.toScalar)
  | _ => none

/-- The value under a name, or null when there is none. -/
def memberOrNull (members : List (String × Json)) (name : String) : Json :=
  (members.lookup name).getD .null

/-- Read a declaration: an object with the members `type`, `min` and `max`, or a list of those
three, of which all but the first may be left out. -/
def ofJson? : Json → Option (Declaration W)
  | .object members => do
    let type ← members.lookup "type"
    return ⟨← typeOfJson? type, ← boundOfJson? (memberOrNull members "min"),
      ← boundOfJson? (memberOrNull members "max")⟩
  | .array [type] => do return ⟨← typeOfJson? type, none, none⟩
  | .array [type, low] => do return ⟨← typeOfJson? type, ← boundOfJson? low, none⟩
  | .array [type, low, high] => do
    return ⟨← typeOfJson? type, ← boundOfJson? low, ← boundOfJson? high⟩
  | _ => none

/-- One end of a range as words: whether there is one, and its bit pattern. -/
def boundWords : Option W → List Word
  | none => [.number 0]
  | some bound => [.number 1, .number (Scalar.code bound)]

/-- What a declaration contributes to a digest. -/
def words (d : Declaration W) : List Word :=
  d.type.word :: boundWords d.minimum ++ boundWords d.maximum

end Declaration

/-- The declared properties of a data source. -/
abbrev Schema (W : Type) := Dictionary (Declaration W)

namespace Schema

variable {W : Type} [Scalar W]

/-- Read a schema: an object of declarations. -/
def ofJson? : Json → Option (Schema W)
  | .object members => do
    let declarations ← members.mapM fun (name, json) => do
      return (name, ← Declaration.ofJson? json)
    return Dictionary.ofList declarations
  | _ => none

/-- What a schema contributes to a digest. -/
def words (schema : Schema W) : List Word :=
  schema.entries.flatMap fun (name, declaration) => Word.ofString name ++ declaration.words

end Schema

end MapStyle
