import TripleTables.CommandLine

/-!
# The program

Reads files and variables for the command line and prints what comes out.
-/

open TripleTables

/-- The text of a file, if it can be read. -/
def readTextFile (path : String) : IO (Option String) := do
  try
    return some (← IO.FS.readFile path)
  catch _ =>
    return none

/-- The variables of the settings that are set. -/
def readEnvironment : IO Environment := do
  let values ← Settings.variableNames.mapM fun name => do return (name, ← IO.getEnv name)
  return fun name => (values.lookup name).join

/-- Compiles the statement of the command line. -/
def main (arguments : List String) : IO UInt32 := do
  let environment ← readEnvironment
  let outcome ← CommandLine.run readTextFile environment arguments
  IO.print outcome.output
  IO.eprint outcome.errors
  return outcome.exitCode.toUInt32
