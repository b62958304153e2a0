import Automation.Boundary
import Automation.Text.Lines

/-
Diagnostics in the output of a compiler.

Each line that is a JSON object with a message is a diagnostic; all else is chatter.  An object
that has a message but does not fit a diagnostic is an error at no position, so that a compile
that reported a problem is never taken for a clean one.
-/

namespace Automation

namespace RawDiagnostic

/-- An error at no position that carries the message of a malformed diagnostic. -/
def malformed (message : String) : RawDiagnostic :=
  ⟨0, 0, message, ProgramError.syntheticNumber, false⟩

/-- The text of the member `message` of a value. -/
def message? (value : Json) : Option String :=
  match value.get? "message" with
  | some (.text s) => some s
  | _ => none

/-- The diagnostic of a value, if it is one. -/
def ofJson? (value : Json) : Option RawDiagnostic :=
  match Decoded.ofJson ofDocument value with
  | .ok d => some d
  | .error _ => (message? value).map malformed

/-- The diagnostic of a line without the white space around it, if it is one. -/
def ofLine? (line : String) : Option RawDiagnostic :=
  if line.toList.head? = some '\x7b' then (Json.parse? line).bind ofJson? else none

end RawDiagnostic

/-- The diagnostics in the output of a compiler, in the order of its lines. -/
def parseDiagnostics (stdout : String) : List RawDiagnostic :=
  ((Text.lines stdout).map Text.trim).filterMap RawDiagnostic.ofLine?

/-- Whether there is an error among some diagnostics. -/
def hasErrors (ds : List RawDiagnostic) : Bool :=
  ds.any fun d => !d.warning

end Automation
