import Automation.Diagnostic
import Automation.Fault
import Automation.Template

/-
From lines of the composed unit to lines of the fragments.

The arithmetic is a straight subtraction.  Lines in front of the main body come out negative, and
lines between the fragments come out past the end of the main body.
-/

namespace Automation

/-- Where the fragments are in a composed unit. -/
structure LineOffsets where
  mainOffset : Int
  triggerOffset : Int
  mainLineCount : Int
deriving Repr, DecidableEq

namespace LineOffsets

/-- The offsets of a composition. -/
def ofComposition (c : Composition) : LineOffsets :=
  ⟨c.mainOffset, c.triggerOffset, c.mainLineCount⟩

/-- Where the trigger condition starts, counted from the start of the main body. -/
def triggerStart (o : LineOffsets) : Int := o.mainLineCount + o.triggerOffset

/-- The fragment and the line in it of a line of the composed unit. -/
def classify (o : LineOffsets) (rawLine : Int) : CodeBlock × Int :=
  let row := rawLine - o.mainOffset
  if o.triggerStart ≤ row then (.triggerCondition, row - o.triggerStart) else (.mainBody, row)

/-- A diagnostic as the author is told about it. -/
def locate (o : LineOffsets) (d : RawDiagnostic) : ProgramError :=
  let (block, line) := o.classify d.line
  ⟨line, d.column, d.message, d.code, block⟩

/-- The errors among some diagnostics, in their order. -/
def errors (o : LineOffsets) (ds : List RawDiagnostic) : List ProgramError :=
  (ds.filter fun d => !d.warning).map o.locate

/-- The warnings among some diagnostics, in their order. -/
def warnings (o : LineOffsets) (ds : List RawDiagnostic) : List ProgramError :=
  (ds.filter fun d => d.warning).map o.locate

/-- A fault as the author is told about it.  A fault does not know which fragment was running, so
the caller says. -/
def formatFault (o : LineOffsets) (entryType : String) (inTrigger : Bool) (fault : ScriptFault) :
    ProgramError :=
  let rawLine := fault.line entryType
  let (block, line) :=
    if inTrigger then
      (CodeBlock.triggerCondition, rawLine - (o.triggerOffset + o.mainOffset + o.mainLineCount))
    else (CodeBlock.mainBody, rawLine - o.mainOffset)
  ⟨line, 0, fault.message, ProgramError.syntheticNumber, block⟩

end LineOffsets

end Automation
