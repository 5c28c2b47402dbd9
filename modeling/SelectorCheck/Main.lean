import SelectorCheck.CommandLine.Run

/-!
# The program

Hands the words of the command line to the library, prints what comes back,
and ends with its exit status, or with a message where there is none.
-/

namespace SelectorCheck.Main

/-- Prints an outcome. A refused command line is answered with the usage. -/
def report : Except LabelError CommandLine.Outcome → IO UInt32
  | .ok outcome => do
    (← IO.getStdout).putStr (String.ofList outcome.stdout)
    (← IO.getStderr).putStr
      (String.ofList (outcome.stderr.getD (CommandLine.lines [CommandLine.usage])))
    return outcome.status.toUInt32
  | .error reason => do
    (← IO.getStderr).putStr (String.ofList (CommandLine.lines [reason.message]))
    return 1

end SelectorCheck.Main

/-- Runs the command line. -/
def main (words : List String) : IO UInt32 :=
  SelectorCheck.Main.report (SelectorCheck.CommandLine.run (words.map String.toList))
