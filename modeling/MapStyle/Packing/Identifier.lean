/-!
# Identifiers

Names from styles and data become identifiers of the shader language. Replacing
characters may give two names one identifier; the later one then gets the first
numeric suffix that is free.
-/

namespace MapStyle.Identifier

/-- Whether a character may stand in an identifier. -/
def isWord (c : Char) : Bool := c.isAlphanum || c == '_'

/-- Drop underscores from the front while there are two of them, which are reserved. -/
def dropReserved : List Char → List Char
  | '_' :: '_' :: rest => dropReserved ('_' :: rest)
  | chars => chars

/-- Put a letter in front where an identifier would be empty or start with a digit. -/
def openWord : List Char → List Char
  | [] => ['v']
  | c :: rest => if c.isDigit then 'v' :: c :: rest else c :: rest

/-- A name as an identifier: every character that may not stand in one becomes `_`. -/
def sanitize (name : String) : String :=
  let chars := name.toList.map fun c => if isWord c then c else '_'
  String.ofList (openWord (dropReserved chars))

/-- A name with a numeric suffix, or without one. -/
def candidate (base : String) (suffix : Nat) : String :=
  if suffix = 0 then base else base ++ "_" ++ toString suffix

/-- The name with the least suffix that is not taken. Of one more candidates than there are
names taken, one is free. -/
def firstFree (taken : List String) (base : String) : String :=
  (((List.range (taken.length + 1)).map (candidate base)).find? (!taken.contains ·)).getD base

end MapStyle.Identifier
