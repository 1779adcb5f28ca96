import MapStyle.Cache.Service
import MapStyle.Command.Arguments
import MapStyle.Command.Host
import MapStyle.Command.Report
import MapStyle.Config
import MapStyle.Tile.Document

/-!
# Commands

What the commands do, on any host: the settings are read first, whatever the command,
and a command that fails prints nothing.
-/

namespace MapStyle

/-- Why a command failed. -/
structure CommandFailure where
  message : String
  /-- What lies behind it, if it is known. -/
  cause : Option String
deriving DecidableEq, Repr

namespace CommandFailure

/-- The text that shows a failure. -/
def text (f : CommandFailure) : String :=
  joinLines <| ("Error: " ++ f.message) :: match f.cause with
    | some cause => ["", "Caused by:", "    " ++ cause]
    | none => []

end CommandFailure

/-- How a program ends: its exit code, what it prints, and what it prints on its failure. -/
structure Response where
  code : UInt32
  out : String
  err : String
deriving DecidableEq, Repr

namespace Command

/-- A command that may fail. -/
abbrev Job (m : Type → Type) (α : Type) := ExceptT CommandFailure m α

variable {m : Type → Type} [Monad m]

/-- The settings file that is read when no other one is named. -/
def defaultConfigPath : String := "strata.toml"

/-- Fail with a message. -/
def fail {α : Type} (message : String) (cause : Option String) : Job m α :=
  throw ⟨message, cause⟩

/-- The text of a file. -/
def readFile (host : Host m) (path : String) : Job m String := do
  match ← (host.read path : m (Option String)) with
  | some text => return text
  | none => fail s!"Failed to read {path}" none

/-- The settings of the named file, or of the default one if it is there. -/
def loadConfig (host : Host m) (path : Option String) : Job m Config := do
  let file := path.getD defaultConfigPath
  if ← (host.isPresent file : m Bool) then
    match Config.ofText? (← readFile host file) with
    | some settings => return settings
    | none => fail s!"Failed to parse {file}" none
  else
    match path with
    | some _ => fail s!"No config file found at {file}" none
    | none => return Config.default

/-- The settings with the variables of the environment. -/
def effectiveConfig (host : Host m) (settings : Config) : Job m Config := do
  let tolerance ← (host.environment Config.toleranceVariable : m (Option String))
  let budget ← (host.environment Config.budgetVariable : m (Option String))
  return settings.withEnvironment fun name =>
    if name = Config.toleranceVariable then tolerance
    else if name = Config.budgetVariable then budget
    else none

/-- The specification in a file. -/
def loadStyle (host : Host m) (path : String) : Job m (StyleSpec Double Single) := do
  match StyleSpec.ofText (← readFile host path) with
  | .ok spec => return spec
  | .error fault => fail s!"Invalid style {path}" (some (CompileError.invalidSpec fault).message)

/-- The compiled style of a file. -/
def compileStyle (host : Host m) (path : String) : Job m (CompiledStyle Double Single) := do
  match CompiledStyle.ofSpec (← loadStyle host path) with
  | .ok style => return style
  | .error e => fail s!"Failed to compile {path}" (some e.message)

/-- A file in a directory. -/
def joinPath (directory file : String) : String :=
  if directory.toList.getLast? = some '/' then directory ++ file else directory ++ "/" ++ file

/-- Write a file into a directory. -/
def writeInto (host : Host m) (directory file text : String) : Job m Unit := do
  let path := joinPath directory file
  if !(← (host.write path text : m Bool)) then fail s!"Failed to write {path}" none

/-- Write the programs of a style into a directory. -/
def writePrograms (host : Host m) (directory : String) (programs : List ShaderProgram) :
    Job m Unit := do
  if !(← (host.makeDirectory directory : m Bool)) then
    fail s!"Failed to create {directory}" none
  programs.forM fun program => do
    writeInto host directory s!"{program.kind.name}.vert.wgsl" program.vertexSource
    writeInto host directory s!"{program.kind.name}.frag.wgsl" program.fragmentSource

/-- Compile a style and report it. -/
def compileCommand (host : Host m) (path : String) (out : Option String) (json : Bool) :
    Job m String := do
  let style ← compileStyle host path
  match out with
  | some directory => writePrograms host directory style.programs
  | none => pure ()
  return if json then style.reportJson.renderLines ++ "\n" else style.report

/-- Build the buffers of a tile and report them. -/
def tessellateCommand (host : Host m) (settings : Config) (stylePath tilePath : String) :
    Job m String := do
  let style ← compileStyle host stylePath
  match Tile.ofText? (← readFile host tilePath) with
  | none => fail s!"Invalid tile {tilePath}" none
  | some tile =>
    let service : TileService Double Single Unit :=
      TileService.start (.exact settings.fillTolerance) settings.memoryBudget.toNat
    match (service.build tile style).2 with
    | some (.ready buffers) => return buffers.report
    | some (.failed tile) => fail (BuildOutcome.failureMessage tile) none
    | some .abandoned | none => fail "tile build was abandoned" none

/-- Show the digest of a style. -/
def hashCommand (host : Host m) (path : String) : Job m String := do
  match ParsedStyle.ofSpec (← loadStyle host path) with
  | .ok style => return Digest.text style.hash ++ "\n"
  | .error e => fail e.message none

/-- Show the settings. -/
def configCommand (settings : Config) : Job m String :=
  match settings.text with
  | some text => return text
  | none => fail "Failed to serialize config" none

/-- Do what a command says. -/
def perform (host : Host m) (configPath : Option String) (command : Command) : Job m String := do
  let settings ← effectiveConfig host (← loadConfig host configPath)
  match command with
  | .compile style out json => compileCommand host style out json
  | .tessellate style tile => tessellateCommand host settings style tile
  | .hash style => hashCommand host style
  | .config => configCommand settings

end Command

/-- Run the program on a host. -/
def runProgram {m : Type → Type} [Monad m] (host : Host m) (arguments : List String) :
    m Response :=
  match Invocation.ofArguments arguments with
  | .misuse => return ⟨2, "", Invocation.helpOn .program⟩
  | .show text => return ⟨0, text, ""⟩
  | .run config command => do
    match ← (Command.perform host config command).run with
    | .ok out => return ⟨0, out, ""⟩
    | .error failure => return ⟨1, "", failure.text⟩

end MapStyle
