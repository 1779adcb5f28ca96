import MapStyle.Command.Run

/-!
# The program

The commands on the machine itself. Nothing is decided here: the machine reads and writes
what a command asks for, and shows how the command ended.
-/

namespace MapStyle

/-- The machine itself as a host. A file that is not there or that is no text cannot be read. -/
def machine : Host IO where
  environment name := IO.getEnv name
  isPresent path := do
    try discard (IO.FS.realPath path); return true
    catch _ => return false
  read path := do
    try return some (← IO.FS.readFile path)
    catch _ => return none
  makeDirectory path := do
    try IO.FS.createDirAll path; return true
    catch _ => return false
  write path text := do
    try IO.FS.writeFile path text; return true
    catch _ => return false

end MapStyle

/-- Run the program with the words of its command line. -/
def main (arguments : List String) : IO UInt32 := do
  let response ← MapStyle.runProgram MapStyle.machine arguments
  (← IO.getStdout).putStr response.out
  (← IO.getStderr).putStr response.err
  return response.code
