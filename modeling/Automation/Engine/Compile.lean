import Automation.Engine.State
import Automation.LineOffsets

/-
Compiling a program.

A compile either replaces the stable artifact or leaves it as it was.  The program is disabled for
as long as it takes, and stays so when the compile fails.
-/

namespace Automation

/-- What a compile takes from the program when it starts. -/
structure CompileJob where
  address : String
  wasEnabled : Bool
  source : String
  trigger : Option String
deriving Repr, DecidableEq

namespace Engine

open EngineAct

variable {τ ε : Type}

/-- Disable the program and take what the compile needs of it. -/
def beginCompile : EngineAct τ ε CompileJob := do
  let p ← program
  editProgram fun p => { p with scriptErrors := "", isEnabled := false }
  pure ⟨p.address, p.isEnabled, p.scriptSource, p.scriptSetup⟩

/-- End a compile with errors. -/
def failCompile (errors : List ProgramError) : EngineAct τ ε (List ProgramError) := do
  editProgram fun p => { p with lastCompileErrors := errors }
  pure errors

/-- The one error that stands for a failure. -/
def failureErrors (f : Failure) : List ProgramError := [.synthetic f.message]

/-- Clean the staging area of an address and find a fresh path in it. -/
def stage (e : Engine τ ε) (address : String) : Act τ (Except Failure Path) := do
  let store := e.environment.store
  let _ ← Act.task (store.cleanStaging address)
  match ← Act.task store.ensureDirectories with
  | .error f => pure (.error f)
  | .ok _ => Act.freshTask (store.stagingPath address)

/-- The order for the compiler. -/
def compileRequest (e : Engine τ ε) (job : CompileJob) (composition : Composition)
    (staged : Path) : CompileRequest :=
  { address := job.address
    source := composition.text
    triggerSource := job.trigger
    outputPath := staged
    references := e.environment.config.compiler.references }

/-- The notice of a warning. -/
def warningNotice (address : String) (warning : ProgramError) : Notice :=
  ⟨address, compilerWarning, warning.notice⟩

/-- Run the compiler and give notice of its warnings.  The answer is its errors. -/
def invokeCompiler (e : Engine τ ε) (job : CompileJob) (staged : Path) :
    EngineAct τ ε (List ProgramError) := do
  let composition := e.environment.template.compose job.source job.trigger
  let offsets := LineOffsets.ofComposition composition
  match ← inWorld (e.compiler (e.compileRequest job composition staged)) with
  | .error f => pure (failureErrors f)
  | .ok ds =>
      (offsets.warnings ds).forM fun warning => notify (warningNotice job.address warning)
      pure (offsets.errors ds)

/-- Discard what was staged and end the compile with errors. -/
def abandon (e : Engine τ ε) (staged : Path) (errors : List ProgramError) :
    EngineAct τ ε (List ProgramError) := do
  let _ ← inWorld (Act.task (e.environment.store.discard staged))
  failCompile errors

/-- Commit what was staged, unless there are errors. -/
def settle (e : Engine τ ε) (job : CompileJob) (staged : Path) (errors : List ProgramError) :
    EngineAct τ ε (List ProgramError) := do
  if !errors.isEmpty then e.abandon staged errors
  else
    match ← inWorld (Act.task (e.environment.store.commit staged job.address)) with
    | .error f => e.abandon staged (failureErrors (f.within .commitArtifact))
    | .ok _ =>
        editProgram fun p =>
          { p with lastCompileErrors := [], isEnabled := p.isEnabled || job.wasEnabled }
        pure []

/-- Compile the program and commit its artifact when there are no errors. -/
def compile (e : Engine τ ε) : EngineAct τ ε (List ProgramError) := do
  let job ← beginCompile
  match ← inWorld (e.stage job.address) with
  | .error f => failCompile (failureErrors f)
  | .ok staged =>
      let errors ← e.invokeCompiler job staged
      e.settle job staged errors

end Engine

end Automation
