import MapStyle.Text.Blank
import MapStyle.Toml.Reader

/-!
# Settings

The settings of the program: what is logged, how fills are cut and how much memory
tiles may take. They come from a settings file, in which everything may be left out,
and two variables of the environment go before it.
-/

namespace MapStyle

/-- The settings. -/
structure Config where
  /-- What is logged. -/
  filter : String
  /-- The greatest distance between a curve and the edges drawn in its place. -/
  fillTolerance : Single
  /-- The bytes of tile buffers above which idle ones are taken out. -/
  memoryBudget : UInt64
deriving DecidableEq

namespace Config

def default : Config where
  filter := "info"
  fillTolerance := Binary.ofDecimal ⟨false, 1, -1⟩
  memoryBudget := 256 * 1024 * 1024

/-! ## Settings files -/

/-- The members of a section, each if it is there: a table, a list of the first members, or a
date or time, which has none of them. -/
def section? (names : List String) : Toml → Option (List (Option Toml))
  | .table _ entries => some (names.map (entries.lookup ·))
  | .array items => some ((List.range names.length).map (items[·]?))
  | .tables items =>
    some ((List.range names.length).map fun i => (items[i]?).map (.table .header))
  | .time _ => some (names.map fun _ => none)
  | _ => none

/-- The only member of a section, which may be left out, like the section. -/
def setting? {α : Type} (root : List (String × Toml)) (sectionName name : String) (default : α)
    (read : Toml → Option α) : Option α :=
  match root.lookup sectionName with
  | none => some default
  | some found =>
    match section? [name] found with
    | some [none] => some default
    | some [some value] => read value
    | _ => none

def text? : Toml → Option String
  | .string s => some s
  | _ => none

/-- A number, whole or not, of the narrow machine type. -/
def single? : Toml → Option Single
  | .float x => some x.convert
  | .integer n => some (Binary.ofRatio (n < 0) n.natAbs 1)
  | _ => none

def word? : Toml → Option UInt64
  | .integer n => if 0 ≤ n then some (.ofNat n.toNat) else none
  | _ => none

/-- Read settings from a settings file. -/
def ofToml? : Toml → Option Config
  | .table _ root => do
    return {
      filter := ← setting? root "log" "filter" default.filter text?
      fillTolerance := ← setting? root "tessellation" "fill_tolerance" default.fillTolerance single?
      memoryBudget := ← setting? root "cache" "memory_budget_bytes" default.memoryBudget word? }
  | _ => none

/-- Read settings from the text of a settings file. -/
def ofText? (text : String) : Option Config := (Toml.ofText? text).bind ofToml?

/-- The text of a settings file, unless the budget is no number of such a file. -/
def text (c : Config) : Option String :=
  if c.memoryBudget.toNat ≤ Int64.maxValue.toInt then
    some <| String.join <| List.map (· ++ "\n") [
      "[log]",
      "filter = " ++ Toml.writeString c.filter,
      "",
      "[tessellation]",
      "fill_tolerance = " ++ Toml.writeFloat c.fillTolerance.convert,
      "",
      "[cache]",
      "memory_budget_bytes = " ++ toString c.memoryBudget]
  else none

/-! ## The environment -/

/-- The names of the variables. -/
def toleranceVariable : String := "STRATA_FILL_TOLERANCE"

def budgetVariable : String := "STRATA_TILE_CACHE_MB"

/-- A tolerance: a positive number that is finite. -/
def toleranceOf? (value : String) : Option Single :=
  match Decimal.scan (Text.trim value.toList) with
  | .number d [] =>
    let x : Single := Binary.ofDecimal d
    if Scalar.isFinite x && Scalar.lt Scalar.zero x then some x else none
  | _ => none

/-- A natural number of 64 bits, perhaps with a plus. -/
def naturalOf? (value : String) : Option Nat :=
  let text := Text.trim value.toList
  let digits := match text with
    | '+' :: rest => rest
    | _ => text
  if digits.isEmpty || !digits.all Char.isDigit then none
  else
    let n := Decimal.naturalOf digits
    if n < UInt64.size then some n else none

/-- A budget in mebibytes, as bytes; beyond the greatest budget, that one. -/
def budgetOf? (value : String) : Option UInt64 :=
  (naturalOf? value).map fun n => .ofNat (min (n * (1024 * 1024)) (UInt64.size - 1))

/-- Let variables of the environment go before the settings. A variable whose value is of no use
is passed over. -/
def withEnvironment (environment : String → Option String) (c : Config) : Config where
  filter := c.filter
  fillTolerance := ((environment toleranceVariable).bind toleranceOf?).getD c.fillTolerance
  memoryBudget := ((environment budgetVariable).bind budgetOf?).getD c.memoryBudget

end Config

end MapStyle
