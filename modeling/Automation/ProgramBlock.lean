import Automation.Diagnostic
import Automation.Instant

/-
Programs as their owner holds them.

The sources and the two switches `isEnabled` and `willRun` belong to the owner.  An engine turns
`isEnabled` off while it compiles, and reports through the error fields and the two instants.
-/

namespace Automation

/-- A program and what is known about it. -/
structure ProgramBlock where
  /-- The identity of the program, which also names its artifact. -/
  address : String
  name : String
  /-- The main body. -/
  scriptSource : String
  /-- The trigger condition, if the program has one. -/
  scriptSetup : Option String
  isEnabled : Bool
  /-- Activate the program whatever its trigger condition says. -/
  willRun : Bool
  /-- Why the last load failed. -/
  scriptErrors : String
  lastCompileErrors : List ProgramError
  activationTime : Option Instant
  triggerTime : Option Instant
deriving Repr, DecidableEq, Inhabited

/-- A new program: disabled, never activated, and named after its address. -/
def ProgramBlock.ofSource (address scriptSource : String) : ProgramBlock :=
  { address := address
    name := "program " ++ address
    scriptSource := scriptSource
    scriptSetup := none
    isEnabled := false
    willRun := false
    scriptErrors := ""
    lastCompileErrors := []
    activationTime := none
    triggerTime := none }

/-- The property that publishes the warnings of a compiler. -/
def compilerWarning : String := "Runtime.Compiler.Warning"

/-- What is wrong with a program that was never compiled. -/
def notCompiled : String := "Program is not compiled."

end Automation
