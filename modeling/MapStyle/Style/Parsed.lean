import MapStyle.Expr.Parse
import MapStyle.Style.Property
import MapStyle.Style.Spec

/-!
# Parsed styles

A style whose properties have all been parsed and typed. That is all its digest
needs, and the digest is all that a look-up in a cache of compiled styles needs.
-/

namespace MapStyle

/-- A typed style. -/
structure ParsedStyle (W N : Type) where
  /-- The properties that are set, in their order. -/
  properties : List (StyleProperty × Expr W N)
  bindings : Dictionary (Value W N)
  schema : Option (Schema W)
  externals : Registry W N

namespace ParsedStyle

variable {W N : Type} [Scalar W] [Scalar N]

/-- Parse the expression of one property. -/
def parseProperty [Precision W N] (parser : Parser W N) (name : String) (json : Json) :
    Parsed (StyleProperty × Expr W N) × Parser W N :=
  match StyleProperty.ofName? name with
  | none => (.error (.unknownStyleProperty name), parser)
  | some property =>
    match Parse.value parser name property.type json with
    | (.ok e, parser) => (.ok (property, e), parser)
    | (.error e, parser) => (.error e, parser)

/-- Parse properties one after the other, all with one parser. -/
def parseProperties [Precision W N] (parser : Parser W N) :
    List (String × Json) → Parsed (List (StyleProperty × Expr W N))
  | [] => .ok []
  | (name, json) :: rest =>
    match parseProperty parser name json with
    | (.ok entry, parser) => do return entry :: (← parseProperties parser rest)
    | (.error e, _) => .error e

/-- The parsed properties in the order of the properties. -/
def inOrder (parsed : List (StyleProperty × Expr W N)) : List (StyleProperty × Expr W N) :=
  StyleProperty.all.filterMap fun property => (parsed.find? (·.1 = property))

/-- Parse a specification. The variables come first, then the properties in the order of their
names. -/
def ofSpec [Precision W N] (spec : StyleSpec W N) : Except CompileError (ParsedStyle W N) :=
  match spec.variableValues with
  | .error fault => .error (.invalidSpec fault)
  | .ok bindings =>
    let env : Environment W N := ⟨spec.schema, bindings, spec.externals⟩
    match parseProperties (.start env) spec.properties.entries with
    | .error e => .error e
    | .ok parsed => .ok ⟨inOrder parsed, bindings, spec.schema, spec.externals⟩

/-- What a style contributes to a digest. -/
def words (style : ParsedStyle W N) : List Word :=
  .number style.properties.length ::
    style.properties.flatMap (fun (property, e) => Word.ofString property.name ++ e.words) ++
  .number style.bindings.size ::
    style.bindings.entries.flatMap (fun (name, value) => Word.ofString name ++ value.words) ++
  (match style.schema with
    | none => [.number 0]
    | some schema => .number 1 :: schema.words) ++
  style.externals.words

/-- The digest under which a style is cached. -/
def hash (style : ParsedStyle W N) : UInt64 := Digest.ofWords style.words

end ParsedStyle

end MapStyle
