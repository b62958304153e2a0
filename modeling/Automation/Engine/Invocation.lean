import Automation.Engine.State
import Automation.LineOffsets

/-
Loading a unit and invoking it.

Loading only copies the artifact.  The unit is bound when it is first invoked, for a generation of
its own; a context whose generation has been retired behind the back of the engine, or whose entry
no longer answers reliably, is given up and bound again.
-/

namespace Automation.Engine

open EngineAct

variable {τ ε : Type}

/-- Ask the bound entry something that changes what is known of it. -/
def ask {α : Type} (call : Act τ (α × ε)) : EngineAct τ ε α := do
  let (value, entry) ← inWorld call
  let current ← slot
  setSlot (current.withEntry entry)
  pure value

/-- Empty the slot.  A bound context is retired first, and its entry given up after that. -/
def teardown (e : Engine τ ε) : EngineAct τ ε Unit := do
  let current ← slot
  setSlot .unloaded
  match current.context? with
  | none => pure ()
  | some context =>
      closeContext (← address) context.generation
      inWorld (e.loader.capabilities.release context.entry)

/-- Why a program has nothing to load: the failure to read its artifact, or that there is none. -/
def loadProblem (e : Engine τ ε) (address : String) (f : Failure) (t : FileTree) : String :=
  if e.environment.store.hasArtifact address t then f.message else notCompiled

/-- Copy the stable artifact of the program.  What was loaded before is torn down first. -/
def load (e : Engine τ ε) : EngineAct τ ε Bool := do
  if (← slot).isLoaded then e.teardown
  let address ← address
  match ← inWorld (Act.task (e.environment.store.read address)) with
  | .ok image =>
      setSlot (.loaded image none)
      pure true
  | .error f =>
      let problem ← inWorld (Act.files (FileAction.observe (e.loadProblem address f)))
      editProgram fun p => if p.scriptErrors.isEmpty then { p with scriptErrors := problem } else p
      pure false

/-- Give up a bound context that must not be invoked any more. -/
def dropOutdated (e : Engine τ ε) (address : String) (image : ArtifactImage)
    (context : BoundContext ε) : EngineAct τ ε (Option (BoundContext ε)) := do
  if !(← isLive address context.generation) then
    setSlot (.loaded image none)
    inWorld (e.loader.capabilities.release context.entry)
    pure none
  else if !(← inWorld fun w => (e.loader.capabilities.isUsable context.entry w, w)) then
    closeContext address context.generation
    setSlot (.loaded image none)
    inWorld (e.loader.capabilities.release context.entry)
    pure none
  else pure (some context)

/-- Bind an image for a generation of its own. -/
def bindImage (e : Engine τ ε) (address : String) (image : ArtifactImage) :
    EngineAct τ ε (Option (BoundContext ε)) := do
  match ← openContext address with
  | .error _ => pure none
  | .ok generation =>
      let config := e.environment.config
      let request := ⟨address, generation, image, config.entryType, config.host.endpoint⟩
      match ← inWorld (e.loader.bindEntry request) with
      | .ok entry =>
          let context := ⟨generation, entry⟩
          setSlot (.loaded image (some context))
          pure (some context)
      | .error _ =>
          closeContext address generation
          pure none

/-- The context to invoke.  There is none when nothing is loaded or binding fails. -/
def ensureBound (e : Engine τ ε) : EngineAct τ ε (Option (BoundContext ε)) := do
  let address ← address
  match ← slot with
  | .unloaded => pure none
  | .loaded image none => e.bindImage address image
  | .loaded image (some context) =>
      match ← e.dropOutdated address image context with
      | some context => pure (some context)
      | none => e.bindImage address image

/-- Invoke `setup`.  Its outcome counts as yes while the program is told to run anyway. -/
def setup (e : Engine τ ε) : EngineAct τ ε (Except ScriptFault (Option MethodRunResult)) := do
  match ← e.ensureBound with
  | none => pure (.ok none)
  | some context =>
      match ← ask (e.loader.capabilities.setup context.entry) with
      | .error fault => pure (.error fault)
      | .ok result =>
          let activated := result.returnValue || (← program).willRun
          if activated then
            let now ← inWorld Act.now
            editProgram fun p => { p with activationTime := some now }
          pure (.ok (some { result with returnValue := activated }))

/-- Invoke `run`.  The time is kept whatever the outcome. -/
def run (e : Engine τ ε) (options : String) :
    EngineAct τ ε (Except ScriptFault (Option MethodRunResult)) := do
  match ← e.ensureBound with
  | none => pure (.ok none)
  | some context =>
      let result ← ask (e.loader.capabilities.run context.entry options)
      let now ← inWorld Act.now
      editProgram fun p => { p with triggerTime := some now }
      pure (result.map some)

/-- Invoke `reset` on a bound unit that supports it. -/
def reset (e : Engine τ ε) : EngineAct τ ε (Except ScriptFault Unit) := do
  match (← slot).context? with
  | none => pure (.ok ())
  | some context =>
      if ← inWorld fun w => (e.loader.capabilities.supportsReset context.entry w, w) then
        ask (e.loader.capabilities.reset context.entry)
      else pure (.ok ())

/-- Reset the unit, forget when it was invoked, and empty the slot. -/
def unload (e : Engine τ ε) : EngineAct τ ε Unit := do
  let _ ← e.reset
  editProgram fun p => { p with activationTime := none, triggerTime := none }
  e.teardown

/-- What happens to an engine that is given up. -/
def dispose (e : Engine τ ε) : EngineAct τ ε Unit := do
  if (← slot).isLoaded then e.unload

/-- Map a fault of `setup` (in the trigger condition) or of `run` back to the source. -/
def formattedError (e : Engine τ ε) (fault : ScriptFault) (inTrigger : Bool) :
    EngineAct τ ε ProgramError := do
  let template := e.environment.template
  let offsets : LineOffsets :=
    ⟨template.mainOffset, template.triggerOffset, lineCount (← program).scriptSource⟩
  pure (offsets.formatFault e.environment.config.entryType inTrigger fault)

end Automation.Engine
