/-!
# Command lines

What the words of a command line ask for. Options may stand before and after the
words of a command, a short option may hold its value, and two dashes end the
options.
-/

namespace MapStyle

/-- What the program is to do. -/
inductive Command where
  /-- Compile a style, perhaps write its programs into a directory, and report it, perhaps as
  JSON. -/
  | compile (style : String) (out : Option String) (json : Bool)
  /-- Build the buffers of a tile under a style, and report them. -/
  | tessellate (style tile : String)
  /-- Show the digest of a style. -/
  | hash (style : String)
  /-- Show the settings. -/
  | config
deriving DecidableEq, Repr

/-- What a command line asks for. -/
inductive Invocation where
  /-- Run a command with the settings of a file. -/
  | run (config : Option String) (command : Command)
  /-- Show a text. -/
  | show (text : String)
  /-- The command line is of no use. -/
  | misuse
deriving DecidableEq, Repr

namespace Invocation

/-- The options. -/
inductive Flag where
  | config
  | out
  | json
  | help
  | version
deriving DecidableEq, Repr

namespace Flag

def all : List Flag := [config, out, json, help, version]

def short? : Flag → Option Char
  | config => some 'c'
  | out => some 'o'
  | json => none
  | help => some 'h'
  | version => some 'V'

def long : Flag → String
  | config => "config"
  | out => "out"
  | json => "json"
  | help => "help"
  | version => "version"

/-- Whether a value follows an option. -/
def takesValue : Flag → Bool
  | config | out => true
  | json | help | version => false

end Flag

/-- The words with which a command starts, and the program itself without one. -/
inductive Verb where
  | program
  | compile
  | tessellate
  | hash
  | config
  | help
deriving DecidableEq, Repr

namespace Verb

def commands : List Verb := [compile, tessellate, hash, config, help]

def name : Verb → String
  | program => "strata"
  | compile => "compile"
  | tessellate => "tessellate"
  | hash => "hash"
  | config => "config"
  | help => "help"

/-- The options that may follow a verb. -/
def flags : Verb → List Flag
  | program => [.config, .help, .version]
  | compile => [.config, .out, .json, .help]
  | tessellate | hash | config => [.config, .help]
  | help => []

/-- What a verb does. -/
def summary : Verb → String
  | program => "Compile map styles to GPU programs and tessellate tiles"
  | compile => "Compile a style and report its attribute layout and programs"
  | tessellate => "Tessellate a decoded tile (JSON) under a style"
  | hash => "Print the style hash used as a cache key"
  | config => "Print the effective configuration as TOML"
  | help => "Print this message or the help of the given subcommand(s)"

/-- The words after a verb, with what they are. -/
def operands : Verb → List (String × String)
  | program => [("<COMMAND>", "")]
  | config => []
  | compile => [("<STYLE>", "Style specification (JSON)")]
  | tessellate => [("<STYLE>", ""), ("<TILE>", "")]
  | hash => [("<STYLE>", "")]
  | help => [("[COMMAND]...", "Print help for the subcommand(s)")]

end Verb

/-! ## Help -/

/-- How an option is shown, and what it does. -/
def Flag.line : Flag → String × String
  | config => ("-c, --config <CONFIG>", "Config file (defaults to ./strata.toml when present)")
  | out => ("-o, --out <OUT>",
      "Write `<kind>.vert.wgsl` and `<kind>.frag.wgsl` into this directory")
  | json => ("    --json", "Print the result as JSON")
  | help => ("-h, --help", "Print help")
  | version => ("-V, --version", "Print version")

/-- Two columns of text under a heading. -/
def columns (heading : String) (lines : List (String × String)) : List String :=
  let width := (lines.map (·.1.length)).foldl max 0
  let line (item : String × String) : String :=
    let (left, right) := item
    "  " ++ left ++ String.ofList (List.replicate (width - left.length + 2) ' ') ++ right
  if lines.isEmpty then [] else ["", heading] ++ lines.map line

/-- The help on a verb. -/
def helpOn (verb : Verb) : String :=
  let command := if verb = .program then [] else [verb.name]
  let options := if verb.flags.isEmpty then [] else ["[OPTIONS]"]
  let usage := ["strata"] ++ command ++ options ++ verb.operands.map Prod.fst
  let commands := if verb = .program then Verb.commands.map fun v => (v.name, v.summary) else []
  let operands := if verb = .program then [] else verb.operands
  String.join <| List.map (· ++ "\n") <|
    [verb.summary, "", "Usage: " ++ " ".intercalate usage] ++ columns "Commands:" commands ++
      columns "Arguments:" operands ++ columns "Options:" (verb.flags.map Flag.line)

/-- The text that tells the version. -/
def versionText : String := "strata 0.1.0\n"

/-! ## Reading -/

/-- The words read so far after one verb. -/
structure Words where
  values : List (Flag × String)
  operands : List String
  /-- The option whose value was the last word, which is not checked yet. -/
  pending : Option (Flag × String)

/-- What ends the reading of a command line early. -/
abbrev Reading (α : Type) := Except Invocation α

/-- No words. -/
def Words.empty : Words := ⟨[], [], none⟩

/-- Add an option. None may stand twice, and no value may be empty. -/
def Words.insert (words : Words) (flag : Flag) (value : String) : Reading Words :=
  if (words.values.lookup flag).isSome ∨ (flag.takesValue ∧ value = "") then .error .misuse
  else .ok { words with values := (flag, value) :: words.values }

/-- Check the option that is not checked yet. -/
def Words.settle (words : Words) : Reading Words :=
  match words.pending with
  | none => .ok words
  | some (flag, value) => { words with pending := none }.insert flag value

/-- Take an option with the value in the same word, if any. Help and version are shown at once. -/
def Words.add (words : Words) (verb : Verb) (flag : Flag) (value : String) : Reading Words := do
  let words ← words.settle
  match flag with
  | .help => throw (.show (helpOn verb))
  | .version => throw (.show versionText)
  | flag => words.insert flag value

/-- Take an option whose value is a word of its own. It is checked as the next option is taken, or
at the end: a verb after it may show its help first. -/
def Words.addLater (words : Words) (flag : Flag) (value : String) : Reading Words := do
  return { ← words.settle with pending := some (flag, value) }

/-- Whether a word is an option and no value. -/
def isOption (word : String) : Bool :=
  match word.toList with
  | '-' :: _ :: _ => true
  | _ => false

/-- The next word as the value of an option. -/
def nextValue : List String → Reading (String × List String)
  | word :: rest => if isOption word then .error .misuse else .ok (word, rest)
  | [] => .error .misuse

/-- Read the letters of short options, of which the last one may be followed by its value. -/
def readShort (verb : Verb) (words : Words) (rest : List String) :
    List Char → Reading (Words × List String)
  | [] => .ok (words, rest)
  | letter :: more =>
    match verb.flags.find? (·.short? = some letter) with
    | none => .error .misuse
    | some flag =>
      if flag.takesValue then
        match more with
        | [] => do
          let (value, rest) ← nextValue rest
          return (← words.addLater flag value, rest)
        | '=' :: value | value => do return (← words.add verb flag (String.ofList value), rest)
      else do readShort verb (← words.add verb flag "") rest more

/-- Read a long option after its dashes. -/
def readLong (verb : Verb) (words : Words) (rest : List String) (text : List Char) :
    Reading (Words × List String) :=
  let (name, value) := text.span (· != '=')
  match verb.flags.find? (·.long.toList = name), value with
  | none, _ => .error .misuse
  | some flag, [] =>
    if flag.takesValue then do
      let (value, rest) ← nextValue rest
      return (← words.addLater flag value, rest)
    else do return (← words.add verb flag "", rest)
  | some flag, _ :: value =>
    if flag.takesValue then do return (← words.add verb flag (String.ofList value), rest)
    else .error .misuse

/-- Read one word of a command line. -/
def readWord (verb : Verb) (words : Words) (word : String) (rest : List String) :
    Reading (Words × List String) :=
  match word.toList with
  | '-' :: '-' :: name => readLong verb words rest name
  | '-' :: letter :: letters => readShort verb words rest (letter :: letters)
  | _ =>
    if word = "" ∨ words.operands.length = verb.operands.length then .error .misuse
    else .ok ({ words with operands := words.operands ++ [word] }, rest)

/-- Take the words after two dashes. -/
def takePlain (verb : Verb) (words : Words) (rest : List String) : Reading Words :=
  let operands := words.operands ++ rest
  if rest.contains "" ∨ verb.operands.length < operands.length then .error .misuse
  else .ok { words with operands }

/-- Read the words after a verb. Every step takes a word, so fuel beyond their number is never
used up. -/
def readWords (verb : Verb) : (fuel : Nat) → Words → List String → Reading Words
  | 0, _, _ => .error .misuse
  | _ + 1, words, [] => words.settle
  | fuel + 1, words, word :: rest =>
    if word = "--" then do takePlain verb (← words.settle) rest
    else do
      let (words, rest) ← readWord verb words word rest
      readWords verb fuel words rest

/-- The command that words after a verb make. -/
def commandOf (verb : Verb) (words : Words) : Reading Command :=
  match verb, words.operands with
  | .compile, [style] =>
    .ok (.compile style (words.values.lookup .out) (words.values.lookup .json).isSome)
  | .tessellate, [style, tile] => .ok (.tessellate style tile)
  | .hash, [style] => .ok (.hash style)
  | .config, [] => .ok .config
  | _, _ => .error .misuse

/-- Read a verb and the words after it, then check the option ahead of it. Settings named after the
verb go before those named ahead of it. -/
def readVerb (words : Words) (word : String) (rest : List String) : Reading Invocation := do
  if word = "help" then
    match rest with
    | [] => return .show (helpOn .program)
    | [name] =>
      match Verb.commands.find? (·.name = name) with
      | some verb => return .show (helpOn verb)
      | none => return .misuse
    | _ => return .misuse
  match Verb.commands.find? (·.name = word) with
  | none => return .misuse
  | some verb =>
    let after ← readWords verb (rest.length + 1) .empty rest
    let command ← commandOf verb after
    let words ← words.settle
    let config := (after.values.lookup .config).or (words.values.lookup .config)
    return .run config command

/-- Read the options ahead of the verb, then the verb and the words after it. -/
def readProgram : (fuel : Nat) → Words → List String → Reading Invocation
  | 0, _, _ | _, _, [] => .ok .misuse
  | fuel + 1, words, word :: rest =>
    if word = "--" then .ok .misuse
    else if isOption word then do
      let (words, rest) ← readWord .program words word rest
      readProgram fuel words rest
    else readVerb words word rest

/-- What a command line asks for. -/
def ofArguments (arguments : List String) : Invocation :=
  match readProgram (arguments.length + 1) .empty arguments with
  | .ok invocation | .error invocation => invocation

end Invocation

end MapStyle
