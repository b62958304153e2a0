import Automation.Shell.Condition
import Automation.Shell.Filters
import Automation.Shell.Sed

/-
The programs that everybody has.
-/

namespace Automation.Shell.Programs

/-- The programs by their names. -/
def all : List (Octets × Program) :=
  [ ("cat", cat), ("cp", bringing "cp" copy), ("mv", bringing "mv" move), ("rm", rm)
  , ("rmdir", rmdir), ("mkdir", mkdir), ("touch", touch), ("chmod", chmod), ("ls", ls)
  , ("dd", dd), ("sleep", sleep), ("tr", tr), ("sed", sed), ("grep", grep), ("head", head)
  , ("tail", tail), ("wc", wc), ("seq", seq), ("yes", yes), ("sort", sort), ("uniq", uniq)
  , ("rev", rev), ("tac", tac), ("cmp", cmp), ("cut", cut), ("expr", expr), ("tee", tee)
  , ("basename", basename), ("dirname", dirname), ("echo", echo), ("printf", printf), ("pwd", pwd)
  , ("true", fun _ => pure 0), ("false", fun _ => pure 1)
  , ("test", Sh.test "test"), ("[", Sh.test "[") ]

end Automation.Shell.Programs
