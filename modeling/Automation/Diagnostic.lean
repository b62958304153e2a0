/-
What a compiler reports, and what the author of a program is told.

A compiler speaks about lines of the composed unit.  The author wrote two fragments, the main body
and the trigger condition, and is told about lines of those.
-/

namespace Automation

/-- The fragment of a program that a line number refers to. -/
inductive CodeBlock where
  | mainBody
  | triggerCondition
deriving Repr, DecidableEq, Inhabited

/-- The short tag of a fragment. -/
def CodeBlock.tag : CodeBlock → String
  | .mainBody => "CR"
  | .triggerCondition => "TC"

/-- A diagnostic positioned in the composed unit.  The line is 0 when the compiler gives none. -/
structure RawDiagnostic where
  line : Int
  column : Int
  message : String
  code : String
  warning : Bool
deriving Repr, DecidableEq, Inhabited

/-- An error positioned in a fragment. -/
structure ProgramError where
  line : Int
  column : Int
  message : String
  number : String
  block : CodeBlock
deriving Repr, DecidableEq, Inhabited

namespace ProgramError

/-- The number of errors that no compiler numbered. -/
def syntheticNumber : String := "-1"

/-- An error without a position, put down to the main body. -/
def synthetic (message : String) : ProgramError :=
  ⟨0, 0, message, syntheticNumber, .mainBody⟩

/-- Where an error is: its block, line and column. -/
def position (e : ProgramError) : String :=
  e.block.tag ++ "," ++ toString e.line ++ "," ++ toString e.column

/-- The text of an error. -/
def display (e : ProgramError) : String :=
  e.position ++ ": " ++ e.message ++ " (" ++ e.number ++ ")"

/-- The text of a warning, which leaves the number out. -/
def notice (e : ProgramError) : String :=
  e.position ++ ": " ++ e.message

end ProgramError

end Automation
