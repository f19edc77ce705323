/-
# The program

Runs the command line on the arguments of the process.
-/
import MethodGuard.CommandLine

/-- Write what the run leaves behind and exit with its code. -/
def main (args : List String) : IO UInt32 := do
  let outcome := MethodGuard.CommandLine.run MethodGuard.CommandLine.programName args
  (← IO.getStdout).putStr outcome.output
  (← IO.getStderr).putStr outcome.errors
  return outcome.code.toUInt32
