import Automation.Json.Value

/-
What comes back from a running program: a result, or a fault with its call stack.
-/

namespace Automation

/-- One frame of a call stack: the type that declares the method, if known, and the line in the
composed unit. -/
structure StackFrame where
  declaringType : Option String
  line : Int
deriving Repr, DecidableEq, Inhabited

/-- A failure raised by program code.  The innermost frame comes first. -/
structure ScriptFault where
  message : String
  frames : List StackFrame
deriving Repr, DecidableEq, Inhabited

/-- A fault that has no stack. -/
def ScriptFault.ofMessage (message : String) : ScriptFault := ⟨message, []⟩

/-- The outcome of a call: whether it answered yes, and a state nobody looks into. -/
structure MethodRunResult where
  returnValue : Bool
  state : Json
deriving Repr, BEq, Inhabited

/-- A frame whose declaring type is the entry type, possibly nested in others. -/
def StackFrame.isDeclaredBy (entryType : String) (frame : StackFrame) : Bool :=
  match frame.declaringType with
  | some name => entryType.toList.isSuffixOf name.toList
  | none => false

/-- The line of a fault in the composed unit: that of the first frame of the entry type, or else
of the innermost frame, or else 0. -/
def ScriptFault.line (fault : ScriptFault) (entryType : String) : Int :=
  match fault.frames.find? (StackFrame.isDeclaredBy entryType) with
  | some frame => frame.line
  | none =>
      match fault.frames with
      | first :: _ => first.line
      | [] => 0

end Automation
