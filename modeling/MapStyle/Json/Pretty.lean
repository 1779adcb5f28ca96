import MapStyle.Json.Basic

/-!
# Indented JSON texts

Values written over several lines, two spaces deeper for every level.
-/

namespace MapStyle.Json

/-- The start of a line at a depth. -/
def lineStart (depth : Nat) : String := "\n" ++ String.ofList (List.replicate (2 * depth) ' ')

mutual

/-- Append the lines of a value that stands at a depth. -/
def writeLines (out : String) (depth : Nat) : Json → String
  | array [] => out ++ "[]"
  | object [] => out ++ "\x7b\x7d"
  | array items => writeItemLines (out ++ "[") "" depth items
  | object members => writeMemberLines (out ++ "\x7b") "" depth members
  | json => write out json

/-- Append the lines of the items of an array and its end; `separator` goes before the first of
them. -/
def writeItemLines (out separator : String) (depth : Nat) : List Json → String
  | [] => out ++ lineStart depth ++ "]"
  | item :: rest =>
    writeItemLines (writeLines (out ++ separator ++ lineStart (depth + 1)) (depth + 1) item)
      "," depth rest

/-- Append the lines of the members of an object and its end. -/
def writeMemberLines (out separator : String) (depth : Nat) : List (String × Json) → String
  | [] => out ++ lineStart depth ++ "\x7d"
  | (name, value) :: rest =>
    let start := out ++ separator ++ lineStart (depth + 1) ++ quote name ++ ": "
    writeMemberLines (writeLines start (depth + 1) value) "," depth rest

end

/-- The lines of a value. -/
def renderLines (json : Json) : String := writeLines "" 0 json

end MapStyle.Json
