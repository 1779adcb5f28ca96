import MapStyle.Json.Draft
import MapStyle.Tile.Basic

/-!
# Reading tiles

The JSON form of tiles. A record is an object, or a list of its members in order;
members under other names are passed over unread, and a member given twice is an
error. Whole numbers are written as such.
-/

namespace MapStyle

namespace Json.Draft

/-- The members of an object that a record knows. All names must be texts, and a known name may
stand only once. -/
def knownMembers? (names : List String) (members : List (Option String × Draft)) :
    Option (List (String × Draft)) := do
  let members ← members.mapM fun (name, value) => name.map (·, value)
  let known := members.filter fun (name, _) => names.contains name
  if (known.map Prod.fst).Nodup then some known else none

/-- The members of a record in order, each if it is there. -/
def record? (names : List String) : Draft → Option (List (Option Draft))
  | object members => (knownMembers? names members).map fun known =>
    names.map fun name => known.lookup name
  | array items =>
    if items.length ≤ names.length then
      some (items.map some ++ List.replicate (names.length - items.length) none)
    else none
  | _ => none

/-- The name of a choice without contents: a string, or the one member of an object whose value
is null. -/
def choice? : Draft → Option String
  | string name => name
  | object [(name, null)] => name
  | _ => none

/-- A whole number below a limit. -/
def natural? (limit : Nat) : Draft → Option Nat
  | number (.integer n) => if 0 ≤ n ∧ n < limit then some n.toNat else none
  | _ => none

/-- A number, whole or not. -/
def scalar? {W : Type} [Scalar W] : Draft → Option W
  | number n => if inRange n then some n.toScalar else none
  | _ => none

/-- A list whose items are all of one kind. -/
def list? {α : Type} (item? : Draft → Option α) : Draft → Option (List α)
  | array items => items.mapM item?
  | _ => none

end Json.Draft

open Json (Draft)

variable {W N : Type} [Scalar W]

def TileId.ofDraft? (draft : Draft) : Option TileId :=
  match draft.record? ["z", "x", "y"] with
  | some [some z, some x, some y] => do
    return ⟨.ofNat (← z.natural? UInt8.size), .ofNat (← x.natural? UInt32.size),
      .ofNat (← y.natural? UInt32.size)⟩
  | _ => none

/-- A place is a list of its two coordinates. -/
def Point.ofDraft? : Draft → Option (Point W)
  | .array [x, y] => do return ⟨← x.scalar?, ← y.scalar?⟩
  | _ => none

/-- The kind that a geometry names; in a list of its members it must be a string. -/
def Geometry.kindOfDraft? (draft kind : Draft) : Option String :=
  match draft, kind with
  | .array _, .string name => name
  | .array _, _ => none
  | _, kind => kind.choice?

/-- A geometry names its kind and lists its coordinates. -/
def Geometry.ofDraft? (draft : Draft) : Option (Geometry W) :=
  match draft.record? ["type", "coordinates"] with
  | some [some kind, some coordinates] =>
    match Geometry.kindOfDraft? draft kind with
    | some "Point" => (coordinates.list? Point.ofDraft?).map .points
    | some "Line" => (coordinates.list? (·.list? Point.ofDraft?)).map .lines
    | some "Polygon" => (coordinates.list? (·.list? Point.ofDraft?)).map .polygon
    | _ => none
  | _ => none

/-- A property of a feature is a truth value, a number, a string or a list of numbers. -/
def Value.ofDraft? : Draft → Option (Value W N)
  | .bool b => some (.boolean b)
  | .string s => s.map .string
  | .array items => (items.mapM Draft.scalar?).map .numberArray
  | draft => draft.scalar?.map .number

/-- The properties of a feature. Of several under one name the last one counts, and a null stands
for no property. -/
def propertiesOfDraft? : Draft → Option (Dictionary (Value W N))
  | .object members => do
    let members ← members.mapM fun (name, draft) => do
      match draft with
      | .null => return (← name, none)
      | draft => return (← name, some (← Value.ofDraft? draft))
    let latest := (Dictionary.ofList members).entries
    return Dictionary.ofList (latest.filterMap fun (name, value) => value.map (name, ·))
  | _ => none

/-- The number of a feature; a null stands for none. -/
def featureIdOfDraft? : Draft → Option (Option UInt64)
  | .null => some none
  | draft => (draft.natural? UInt64.size).map fun n => some (.ofNat n)

def Feature.ofDraft? (draft : Draft) : Option (Feature W N) :=
  match draft.record? ["id", "geometry", "properties"] with
  | some [id, some geometry, properties] => do
    return ⟨← featureIdOfDraft? (id.getD .null), ← Geometry.ofDraft? geometry,
      ← propertiesOfDraft? (properties.getD (.object []))⟩
  | _ => none

namespace Tile

def ofDraft? (draft : Draft) : Option (Tile W N) :=
  match draft.record? ["id", "generation", "features"] with
  | some [some id, generation, some features] => do
    let first : Draft := .number (.integer 0)
    return ⟨← TileId.ofDraft? id,
      .ofNat (← (generation.getD first).natural? UInt64.size),
      ← features.list? Feature.ofDraft?⟩
  | _ => none

/-- Read a tile from its JSON text. -/
def ofText? (text : String) : Option (Tile W N) := (Draft.ofText? text).bind ofDraft?

end Tile

end MapStyle
