import Parlance.CommandLine.Advice
import Parlance.CommandLine.Run

/-!
# The command line

Reads the environment and the file with the rows, and prints what `Arguments.run` gives. Failures go to
the standard error output.
-/

namespace Parlance.CommandLine

/-- A diagnostic as lines of text. -/
def reportLines (d : Diagnostic) : String :=
  "\n".intercalate
    ([d.code, s!"error: {d.message}"] ++ d.causes.map ("  caused by: " ++ ·) ++
      (d.help.map ("  help: " ++ ·)).toList)

/-- The content of a file, if it can be read. -/
def contentOf (path : String) : IO (Option String) := do
  try return some (← IO.FS.readFile path)
  catch _ => return none

/-- Carries out a command line; the answer is the exit code. -/
def carryOut (texts : List String) : IO UInt32 := do
  let env : Environment :=
    ⟨← IO.getEnv "STREXPR_MAX_INPUT", ← IO.getEnv "STREXPR_VERBOSE"⟩
  match Arguments.parse env texts with
  | .error halt =>
    if halt.isAdvice then
      IO.println halt.message
      return 0
    else
      IO.eprintln halt.message
      return 2
  | .ok args =>
    let content ← match args.command.data? with
      | some path => contentOf path
      | none => pure none
    match args.run content with
    | .ok text =>
      IO.print text
      return 0
    | .error failure =>
      IO.eprintln (reportLines (failure.diagnostic args.command.expression))
      return 1

end Parlance.CommandLine

/-- Runs the program. -/
def main (args : List String) : IO UInt32 := Parlance.CommandLine.carryOut args
