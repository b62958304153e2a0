import Automation.Compiler.Basic

/-
A compiler that plays a script: it answers each request with the next of some prepared results,
and keeps the requests.
-/

namespace Automation

/-- One prepared result. -/
structure ScriptedCompile where
  diagnostics : List RawDiagnostic
  artifact : Option ByteArray
  debug : Option ByteArray
  /-- The tool does not work, and says why. -/
  toolFailure : Option String

/-- The results still to come and the requests so far. -/
structure CompileScript where
  queue : List ScriptedCompile
  requests : List CompileRequest

namespace CompileScript

def empty : CompileScript := ⟨[], []⟩

/-- Add a result at the end. -/
def push (s : CompileScript) (compile : ScriptedCompile) : CompileScript :=
  { s with queue := s.queue ++ [compile] }

/-- Take the next result for a request. -/
def next (s : CompileScript) (request : CompileRequest) :
    Option ScriptedCompile × CompileScript :=
  let requests := s.requests ++ [request]
  match s.queue with
  | [] => (none, ⟨[], requests⟩)
  | first :: rest => (some first, ⟨rest, requests⟩)

end CompileScript

namespace ScriptedCompile

/-- The extension of the debug file of a prepared result. -/
def debugExtension : String := "pdb"

/-- Write a file that a result consists of, if it does. -/
def writePart (p : Path) : Option ByteArray → FileTask Unit
  | none => pure ()
  | some bytes => ExceptT.mk do
      match ← FileAction.perform (.write p bytes) with
      | .ok _ => pure (.ok ())
      | .error e => pure (.error (.ofCause (.os e)))

/-- Play one result. -/
def play (c : ScriptedCompile) (output : Path) : FileTask (List RawDiagnostic) := do
  match c.toolFailure with
  | some text => throw (.ofCause (.reported text))
  | none =>
      writePart output c.artifact
      writePart (output.append ("." ++ debugExtension)) c.debug
      pure c.diagnostics

end ScriptedCompile

/-- The compiler that plays the script in a part of the world. -/
def Compiler.scripted {τ : Type} (part : Part τ CompileScript) : Compiler τ := fun request => do
  match ← Act.outside part (·.next request) with
  | none => pure (.error (.ofCause .nothingScripted))
  | some compile => Act.task (compile.play request.outputPath)

end Automation
