import MiniZincModels.CommandLine.Program

/-!
# Entry point

Hands the arguments to the program and carries out what it decides: the file is
written, then the two streams, and the exit code is returned.  This entry point
starts no other program, so every solver counts as one that was not found.
-/

namespace MiniZincModels.CommandLine

/-- Surroundings without a solver, in which every file can be written or none. -/
def offline (writable : Bool) : Surroundings where
  writable _ := writable
  launch _ := .notFound
  modelFile := "model.mzn"

/-- Writes the file of an outcome, and says whether that was possible. -/
def writeFile (outcome : Outcome) : IO Bool := do
  match outcome.file with
  | none => return true
  | some (path, content) =>
    try
      IO.FS.writeFile path content
      return true
    catch _ => return false

/-- Shows an outcome on the standard streams. -/
def report (outcome : Outcome) : IO UInt32 := do
  (← IO.getStdout).putStr outcome.output
  (← IO.getStderr).putStr outcome.errors
  return UInt32.ofNat outcome.exitCode

end MiniZincModels.CommandLine

open MiniZincModels.CommandLine in
def main (arguments : List String) : IO UInt32 := do
  let outcome := program (offline true) arguments
  if ← writeFile outcome then report outcome
  else report (program (offline false) arguments)
