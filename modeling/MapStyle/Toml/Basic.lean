import MapStyle.Number.Machine
import MapStyle.Text.Hex

/-!
# TOML values

A value of the format in which settings are written, with the rules for where tables
may be opened and extended. A table opened by a header may be extended by headers
below it but not by dotted keys, one made by dotted keys only by dotted keys beside
it, and one written in braces not at all. No name is bound twice.
-/

namespace MapStyle

/-- What a table was made by. -/
inductive Toml.Origin where
  /-- A header below it. -/
  | implied
  /-- A header of its own. -/
  | header
  /-- A dotted key. -/
  | dotted
  /-- Braces. -/
  | braces
deriving DecidableEq, Repr

/-- A value of a settings file. -/
inductive Toml where
  | string (value : String)
  | integer (value : Int)
  | float (value : Double)
  | boolean (value : Bool)
  /-- A date, a time or both, as it is written. -/
  | time (written : String)
  | array (items : List Toml)
  | table (origin : Toml.Origin) (entries : List (String × Toml))
  /-- Tables whose headers add one after another. -/
  | tables (items : List (List (String × Toml)))

namespace Toml

instance : Inhabited Toml := ⟨.boolean false⟩

/-- The entries of a table. -/
abbrev Entries := List (String × Toml)

/-- Bind a name in place of what it is bound to. -/
def replace (name : String) (value : Toml) (entries : Entries) : Entries :=
  entries.map fun (other, kept) => (other, if other = name then value else kept)

/-- Change the table at a path. Tables that the path lacks are made; of tables with headers that
add one after another, the last one is meant. -/
def changeAt (making : Origin) (change : Origin → Entries → Option Entries) :
    (path : List String) → Origin → Entries → Option Entries
  | [], origin, entries => change origin entries
  | name :: path, _, entries =>
    match entries.lookup name with
    | none => do
      let inner ← changeAt making change path making []
      return entries ++ [(name, table making inner)]
    | some (table origin inner) =>
      if origin = .braces ∨ (making = .dotted ∧ origin = .header) then none
      else do
        let inner ← changeAt making change path origin inner
        return replace name (table origin inner) entries
    | some (tables items) =>
      match items.getLast? with
      | none => none
      | some last => do
        let last ← changeAt making change path .header last
        return replace name (tables (items.dropLast ++ [last])) entries
    | some _ => none

/-- Bind a dotted key in a table. -/
def bind (path : List String) (name : String) (value : Toml) (origin : Origin)
    (entries : Entries) : Option Entries :=
  changeAt .dotted
    (fun origin entries =>
      if decide (origin = .dotted) = path.isEmpty ∨ (entries.lookup name).isSome then none
      else some (entries ++ [(name, value)])) path origin entries

/-- Open a table by its header. -/
def openTable (path : List String) (name : String) (root : Entries) : Option Entries :=
  changeAt .implied
    (fun _ entries =>
      match entries.lookup name with
      | none => some (entries ++ [(name, table .header [])])
      | some (table .implied inner) => some (replace name (table .header inner) entries)
      | some _ => none) path .header root

/-- Open one more of several tables by its header. -/
def openItem (path : List String) (name : String) (root : Entries) : Option Entries :=
  changeAt .implied
    (fun _ entries =>
      match entries.lookup name with
      | none => some (entries ++ [(name, tables [[]])])
      | some (tables items) => some (replace name (tables (items ++ [[]])) entries)
      | some _ => none) path .header root

/-! ## Writing -/

/-- The length of the longest run of a character. -/
def longestRun (c : Char) (text : List Char) : Nat :=
  (text.foldl (fun (longest, run) d =>
    let run := if d = c then run + 1 else 0
    (max longest run, run)) (0, 0)).1

/-- Whether a character is a control. -/
def isControl (c : Char) : Bool := c.toNat < 0x20 || c.toNat == 0x7f

/-- Write a string with escapes, after so many quotes in a row; `most` of them may stand as they
are, and line feeds may where `multiline` holds. -/
def writeEscaped (most : Nat) (multiline : Bool) : (run : Nat) → List Char → List Char
  | _, [] => []
  | run, '"' :: rest =>
    if most ≤ run then '\\' :: '"' :: writeEscaped most multiline 0 rest
    else '"' :: writeEscaped most multiline (run + 1) rest
  | _, c :: rest =>
    let shown : List Char :=
      match c with
      | '\\' => ['\\', '\\']
      | '\t' => ['\\', 't']
      | '\r' => ['\\', 'r']
      | '\x08' => ['\\', 'b']
      | '\x0c' => ['\\', 'f']
      | '\n' => if multiline then ['\n'] else ['\\', 'n']
      | c => if isControl c then '\\' :: 'u' :: (Text.hexDigits 4 c.toNat).map Char.toUpper else [c]
    shown ++ writeEscaped most multiline 0 rest

/-- Write a string in the plainest of the four forms: on one line or several, with escapes or
without. A form without escapes is preferred to escapes, and one line to several. -/
def writeString (s : String) : String :=
  let text := s.toList
  let coded := text.any fun c => isControl c && c != '\t' && c != '\n'
  let slashed := text.contains '\\'
  let lines := text.contains '\n'
  let doubles := longestRun '"' text
  let singles := longestRun '\'' text
  let opening : List Char := if lines then ['\n'] else []
  let quotes := List.replicate 3 '"'
  let marks := List.replicate 3 '\''
  let basic := '"' :: writeEscaped 0 false 0 text ++ ['"']
  let basicLines := quotes ++ opening ++ writeEscaped 2 true 0 text ++ quotes
  String.ofList <|
    if !coded && !slashed && doubles = 0 && !lines then basic
    else if !coded && singles = 0 && !lines then '\'' :: text ++ ['\'']
    else if !coded && !slashed && doubles ≤ 2 then basicLines
    else if !coded && singles ≤ 2 then marks ++ opening ++ text ++ marks
    else if lines then basicLines
    else basic

/-- Write a number with a point where it is whole. -/
def writeFloat (x : Double) : String :=
  if x.isNaN then "nan"
  else if Scalar.floor x == x && Scalar.isFinite x then Scalar.text x ++ ".0"
  else Scalar.text x

end Toml

end MapStyle
