import Automation.Compiler.Diagnostics
import Automation.World

/-
What a compiler is.

A compiler is given a composed unit and writes an artifact to a path of the caller's choice.  A
failure means that the tool itself did not work; problems of the source are diagnostics.
-/

namespace Automation

/-- The order for one compile. -/
structure CompileRequest where
  address : String
  /-- The composed unit. -/
  source : String
  /-- The trigger condition as its author wrote it. -/
  triggerSource : Option String
  /-- Where the artifact goes. -/
  outputPath : Path
  references : List String
deriving Repr, DecidableEq

/-- A compiler that acts in a world. -/
abbrev Compiler (τ : Type) := CompileRequest → Act τ (Except Failure (List RawDiagnostic))

end Automation
