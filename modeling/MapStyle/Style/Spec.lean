import MapStyle.CompileError
import MapStyle.Dictionary
import MapStyle.External
import MapStyle.Json.Draft
import MapStyle.Schema

/-!
# Style specifications

A style as its author writes it: expressions for style properties, defaults for
style variables, a schema and callbacks of the host. In a JSON object the members
`variables` and `schema` are the declarations and every other member is a property.
-/

namespace MapStyle

/-- A style that has not been compiled. -/
structure StyleSpec (W N : Type) where
  properties : Dictionary Json
  bindings : Dictionary Json
  schema : Option (Schema W)
  externals : Registry W N

namespace StyleSpec

variable {W N : Type}

def empty : StyleSpec W N := ⟨Dictionary.empty, Dictionary.empty, none, Registry.empty⟩

/-- Take one member of a style object into a specification. -/
def addMember [Scalar W] (spec : StyleSpec W N) (name : String) (json : Json) :
    Except SpecFault (StyleSpec W N) :=
  if name = "variables" then
    match json with
    | .object members => .ok { spec with bindings := Dictionary.ofList members }
    | _ => .error .variablesNotAnObject
  else if name = "schema" then
    match Schema.ofJson? json with
    | some schema => .ok { spec with schema := some schema }
    | none => .error .schemaUnreadable
  else .ok { spec with properties := spec.properties.insert name json }

/-- Read a specification from a JSON value, member by member in the order of their names. -/
def ofJson [Scalar W] : Json → Except SpecFault (StyleSpec W N)
  | .object members =>
    (Dictionary.ofList members).entries.foldlM
      (fun spec (name, json) => spec.addMember name json) empty
  | _ => .error .notAnObject

/-- Read a specification from a JSON text. -/
def ofText [Scalar W] (text : String) : Except SpecFault (StyleSpec W N) :=
  match Json.ofText? text with
  | some json => ofJson json
  | none => .error .notJson

/-! ## Variables -/

variable [Scalar W] [Scalar N] [Precision W N]

/-- Whether a text starts like a color in one of the notations that are no names. -/
def looksLikeColor (text : String) : Bool :=
  let chars := (Text.trimStart text.toList).map Char.toLower
  ['#'].isPrefixOf chars || "rgb(".toList.isPrefixOf chars || "rgba(".toList.isPrefixOf chars

/-- The value of a variable's default. Texts that look like colors must be colors, and so must
lists. -/
def defaultValue? : Json → Option (Value W N)
  | .bool b => some (.boolean b)
  | .number n => some (.number n.toScalar)
  | .string s =>
    if looksLikeColor s then (Color.ofText? W s).map .color else some (.string s)
  | .array items => ((Json.numbers? (α := W) items).bind Color.ofComponents?).map .color
  | .null | .object _ => none

/-- The values of all variables; the first name whose default has none is reported. -/
def variableValues (spec : StyleSpec W N) : Except SpecFault (Dictionary (Value W N)) := do
  let entries ← spec.bindings.entries.mapM fun (name, json) =>
    match defaultValue? json with
    | some value => .ok (name, value)
    | none => .error (.unusableDefault name)
  return Dictionary.ofList entries

end StyleSpec

end MapStyle
