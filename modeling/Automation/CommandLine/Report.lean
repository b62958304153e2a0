import Automation.Boundary
import Automation.CommandLine.Arguments
import Automation.Failure

/-
What a command reports: an exit code, what it prints, and what it complains about.
-/

namespace Automation

namespace CommandLine

/-- How a command has ended. -/
inductive ExitCode where
  | done
  /-- Something other than the program was wrong. -/
  | invalid
  /-- The arguments were not understood. -/
  | misused
  /-- The compiler reported an error. -/
  | compileFailed
  /-- The program raised a fault. -/
  | faulted
  /-- The program could not be loaded or bound, and nothing of it was executed. -/
  | notExecuted
deriving Repr, DecidableEq

/-- The number of an exit code. -/
def ExitCode.number : ExitCode → Nat
  | .done => 0
  | .invalid => 1
  | .misused => 2
  | .compileFailed => 2
  | .faulted => 3
  | .notExecuted => 4

structure Report where
  code : ExitCode
  output : String
  complaint : String
deriving Repr, DecidableEq

namespace Report

/-- A line of a text. -/
def line (s : String) : String := s ++ "\n"

/-- The compact forms of some values, one to a line. -/
def jsonLines (values : List Json) : String :=
  String.join (values.map fun value => line value.compact)

/-- A report that prints some values. -/
def ofJson (code : ExitCode) (values : List Json) : Report := ⟨code, jsonLines values, ""⟩

/-- The report of a failure. -/
def ofFailure (f : Failure) : Report := ⟨.invalid, "", line f.message⟩

/-- How the command line is used. -/
def usage : String :=
  line "Compile, load and run automation programs" ++
  line "" ++
  line "Usage: progengine [--config FILE] COMMAND" ++
  line "" ++
  line "  compile --address ADDRESS --main FILE [--trigger FILE]" ++
  line "  run     --address ADDRESS --main FILE [--trigger FILE] [--options TEXT] [--setup]" ++
  line "  config  [--write]"

/-- The report when the arguments are not read to their end. -/
def ofStop : Stop → Report
  | .help => ⟨.done, usage, ""⟩
  | .version => ⟨.done, line "progengine 0.1.0", ""⟩
  | .usage => ⟨.misused, "", usage⟩

end Report

end CommandLine

end Automation
