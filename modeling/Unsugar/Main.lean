import Unsugar.Command.Run

/-!
# The command line
-/

namespace Unsugar

/-- Reads a stream to its end. -/
partial def readToEnd (stream : IO.FS.Stream) (bytes : ByteArray) : IO ByteArray := do
  let chunk ← stream.read 65536
  if chunk.isEmpty then return bytes else readToEnd stream (bytes ++ chunk)

/-- The files, the standard input and the clock of the process. -/
def processHost : Host IO where
  file path := do
    try return some (← IO.FS.readBinFile path) catch _ => return none
  input := do readToEnd (← IO.getStdin) .empty
  clock := IO.monoNanosNow

/-- Ends the process. -/
def Exit.finish (e : Exit) : IO UInt32 := do
  (← IO.getStdout).putStr e.stdout
  (← IO.getStderr).putStr e.stderr
  return e.code.toUInt32

end Unsugar

open Unsugar in
/-- Desugars the tree that the arguments name. -/
def main (args : List String) : IO UInt32 := do
  match Options.ofArguments args with
  | .error halt => halt.exit.finish
  | .ok options =>
    let outcome ← Run.prepare processHost options
    (outcome.exit options Duration.display).finish
