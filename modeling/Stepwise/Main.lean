import Stepwise.Demo

/-!
# Command line of the demonstration

Prints the progress of the demonstration.  With `--fail` the first computation
is unavailable, and the error is printed instead of the results.
-/

/-- Run the demonstration; the exit code tells whether it succeeded. -/
def main (arguments : List String) : IO UInt32 := do
  let (lines, problem) := Stepwise.Demo.run (arguments.contains "--fail")
  for line in lines do
    IO.println line
  match problem with
  | none => return 0
  | some message =>
      IO.eprintln s!"orchestration failed: {message}"
      return 1
