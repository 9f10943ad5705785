import WidgetStyle.Report

/-!
# Command line

Runs a command on a file: `validate FILE`, `inspect FILE`, or `--version`.
-/

namespace WidgetStyle

/-- How the program is called. -/
def usage : String :=
  "Usage: " ++ Report.programName ++ " [--version] (validate | inspect) STYLESHEET\n"

/-- The last part of a path. -/
def fileName (path : String) : String :=
  String.ofList (path.toList.reverse.takeWhile (· != '/')).reverse

/-- Print an outcome, or why there is none, and return the exit code. -/
def report : Except Text.TooManyDigits Outcome → IO UInt32
  | .ok outcome => do
      IO.print outcome.output
      IO.eprint outcome.errors
      return outcome.exitCode.toUInt32
  | .error excess => do
      IO.eprint ("ValueError: " ++ excess.message ++ "\n")
      return 1

/-- Run the command that the arguments ask for. -/
def runArguments (arguments : List String) : IO UInt32 := do
  match arguments with
  | ["--version"] =>
      IO.print Report.versionLine
      return 0
  | [word, path] =>
      match (Keyword.ofName? word : Option Report.Command) with
      | some command => report (command.run (fileName path) (← IO.FS.readFile path))
      | none =>
          IO.eprint usage
          return 2
  | _ =>
      IO.eprint usage
      return 2

end WidgetStyle

def main (arguments : List String) : IO UInt32 :=
  WidgetStyle.runArguments arguments
