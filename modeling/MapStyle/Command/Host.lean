/-!
# Hosts of commands

What a command needs of the machine it runs on: variables of the environment, files
and directories. A command is written over any host; one of them is a tree of files
held in memory, with which what a command does can be computed.
-/

namespace MapStyle

/-- A machine on which commands run. -/
structure Host (m : Type → Type) where
  /-- The value of a variable of the environment. -/
  environment : String → m (Option String)
  /-- Whether there is something at a path. -/
  isPresent : String → m Bool
  /-- The text of a file, if it can be read. -/
  read : String → m (Option String)
  /-- Make a directory and those around it, and tell whether it is there. -/
  makeDirectory : String → m Bool
  /-- Write a file, and tell whether it is written. -/
  write : String → String → m Bool

/-- Where something is: the names on the way to it from the root. -/
abbrev Path := List String

/-- Files and directories in memory. A directory is there if a file is in it or if it was made. -/
structure FileTree where
  files : List (Path × String)
  directories : List Path

namespace FileTree

/-! ## Written paths -/

/-- The directory from which a path leads that does not start at the root. -/
def workingDirectory : Path := ["tmp", "work"]

/-- The bytes that a name may take. -/
def nameLimit : Nat := 255

/-- The bytes that a written path may take. -/
def pathLimit : Nat := 4095

/-- Where a written path starts. -/
def start (text : String) : Path := if text.toList.head? = some '/' then [] else workingDirectory

/-- The names on a written path. -/
def names (text : String) : List String := (text.splitOn "/").filter (· ≠ "")

/-- The steps of a written path. A slash at its end asks for a directory, as a dot does. -/
def steps (text : String) : List String :=
  names text ++ if text.toList.getLast? = some '/' then ["."] else []

/-- Files in the working directory. Around it there is nothing but the empty device. -/
def ofFiles (files : List (String × String)) : FileTree where
  files := (["dev", "null"], "") ::
    files.map fun (name, text) => (workingDirectory ++ names name, text)
  directories := [workingDirectory.dropLast, workingDirectory]

/-! ## Finding -/

def file? (tree : FileTree) (path : Path) : Option String := tree.files.lookup path

def isDirectory (tree : FileTree) (path : Path) : Bool :=
  path.isEmpty || tree.directories.contains path ||
    tree.files.any fun (other, _) => path.isPrefixOf other && other != path

/-- Where steps from a place lead, if all of them lead from a directory to something in it. -/
def follow? (tree : FileTree) : Path → List String → Option Path
  | place, [] => some place
  | place, step :: rest =>
    if !tree.isDirectory place then none
    else if step = "." then tree.follow? place rest
    else if step = ".." then tree.follow? place.dropLast rest
    else
      let next := place ++ [step]
      if (tree.file? next).isSome || tree.isDirectory next then tree.follow? next rest else none

/-- Where a written path leads. -/
def find? (tree : FileTree) (text : String) : Option Path :=
  if text = "" ∨ pathLimit < text.utf8ByteSize then none
  else tree.follow? (start text) (steps text)

/-- The text of the file to which a written path leads. -/
def read? (tree : FileTree) (text : String) : Option String := (tree.find? text).bind tree.file?

/-! ## Changing -/

/-- Make a directory at the end of steps, unless it is there already. -/
def makeAt (tree : FileTree) (place : Path) (steps : List String) : Option FileTree :=
  match steps.getLast? with
  | none => some tree
  | some name => do
    let place ← tree.follow? place steps.dropLast
    if !tree.isDirectory place then none
    else
      match tree.follow? place [name] with
      | some found => if tree.isDirectory found then some tree else none
      | none =>
        if nameLimit < name.utf8ByteSize then none
        else some { tree with directories := (place ++ [name]) :: tree.directories }

/-- Make a directory and those around it, from the outermost to the innermost. Only the innermost
is named as it is written; dots on the way to the others are passed over. -/
def makeDirectory (tree : FileTree) (text : String) : Option FileTree :=
  let plain := (names text).filter (· ≠ ".")
  let around := (List.range plain.length).map plain.take
  if pathLimit < text.utf8ByteSize then none
  else (around ++ [names text]).foldlM (fun tree steps => tree.makeAt (start text) steps) tree

/-- Write a file into a directory that is there. -/
def write (tree : FileTree) (text content : String) : Option FileTree := do
  let name ← (steps text).getLast?
  let place ← tree.follow? (start text) (steps text).dropLast
  let path := place ++ [name]
  if !tree.isDirectory place || (tree.follow? place [name]).any tree.isDirectory ||
      nameLimit < name.utf8ByteSize || pathLimit < text.utf8ByteSize then none
  else some { tree with files := (path, content) :: tree.files.filter (·.1 ≠ path) }

/-- Go on with a changed tree, if it could be changed. -/
def become (next : Option FileTree) : StateM FileTree Bool := do
  match next with
  | some tree => set tree; return true
  | none => return false

/-- The host of a tree of files. -/
def host (environment : List (String × String)) : Host (StateM FileTree) where
  environment name := return environment.lookup name
  isPresent path := return ((← get).find? path).isSome
  read path := return (← get).read? path
  makeDirectory path := do become ((← get).makeDirectory path)
  write path text := do become ((← get).write path text)

end FileTree

end MapStyle
