import Cnc.CommandLine.Execution

/-!
# The program

Reads files, prints, and exits as `CommandLine.execute` says.
-/

namespace Cnc

/-- What a file holds, if it can be read. -/
def readFile (path : String) : IO (Option ByteArray) := do
  try
    return some (← IO.FS.readBinFile path)
  catch _ =>
    return none

end Cnc

/-- Carries out what the arguments ask for. -/
def main (args : List String) : IO UInt32 := do
  let outcome ← Cnc.CommandLine.execute Cnc.readFile args
  IO.print outcome.output
  IO.eprint outcome.complaint
  return outcome.code
