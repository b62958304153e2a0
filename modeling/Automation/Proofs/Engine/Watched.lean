import Automation.Engine.Compile
import Automation.Engine.Invocation
import Automation.Proofs.Generations

/-
Engines under observation.

An act of an engine says what comes of it, and nothing about what happens on the way.  Here the
acts that open contexts and ask bound entries are told once more, each opening and each question
together with the state just before it.  Forgetting the moments gives back the acts themselves.
-/

namespace Automation

/-- What an engine does that matters to others. -/
inductive Deed (ε : Type) where
  /-- It has opened a context. -/
  | opened (address : String) (generation : Generation)
  /-- It asks the entry of a bound context something. -/
  | asked (request : Request) (context : BoundContext ε)

/-- A deed, and all that the engine works on just before it. -/
structure Moment (τ ε : Type) where
  deed : Deed ε
  state : EngineState τ ε

/-- An act of an engine, and the moments it passes through. -/
structure Watched (τ ε α : Type) where
  act : EngineAct τ ε α
  moments : EngineState τ ε → List (Moment τ ε)

namespace EngineAct

variable {τ ε α β : Type}

theorem run_bind (act : EngineAct τ ε α) (f : α → EngineAct τ ε β) (s : EngineState τ ε) :
    (act >>= f).run s = (f (act.run s).1).run (act.run s).2 := rfl

@[simp] theorem run_inWorld (act : Act τ α) (s : EngineState τ ε) :
    (inWorld act).run s = ((act.run s.world).1, { s with world := (act.run s.world).2 }) := rfl

theorem world_inWorld (act : Act τ α) (s : EngineState τ ε) :
    ((inWorld act).run s).2.world = (act.run s.world).2 := rfl

@[simp] theorem run_program (s : EngineState τ ε) :
    (program : EngineAct τ ε ProgramBlock).run s = (s.program, s) := rfl

@[simp] theorem run_address (s : EngineState τ ε) :
    (address : EngineAct τ ε String).run s = (s.program.address, s) := rfl

@[simp] theorem run_editProgram (f : ProgramBlock → ProgramBlock) (s : EngineState τ ε) :
    (editProgram f : EngineAct τ ε Unit).run s = ((), { s with program := f s.program }) := rfl

@[simp] theorem run_slot (s : EngineState τ ε) :
    (slot : EngineAct τ ε (Slot ε)).run s = (s.slot, s) := rfl

@[simp] theorem run_setSlot (slot : Slot ε) (s : EngineState τ ε) :
    (setSlot slot : EngineAct τ ε Unit).run s = ((), { s with slot := slot }) := rfl

@[simp] theorem run_isLive (address : String) (generation : Generation) (s : EngineState τ ε) :
    (isLive address generation : EngineAct τ ε Bool).run s =
      (s.registry.isLive address generation, s) := rfl

@[simp] theorem run_notify (notice : Notice) (s : EngineState τ ε) :
    (notify notice : EngineAct τ ε Unit).run s =
      ((), { s with notices := s.notices ++ [notice] }) := rfl

/-- The world after an action on its files. -/
theorem run_openContext (address : String) (s : EngineState τ ε) :
    (openContext address : EngineAct τ ε _).run s =
      (((s.registry.openContext address).run s.world.host.files).1.1,
        { s with
          world := s.world.withFiles
            ((s.registry.openContext address).run s.world.host.files).2
          registry := ((s.registry.openContext address).run s.world.host.files).1.2 }) := rfl

theorem run_closeContext (address : String) (generation : Generation) (s : EngineState τ ε) :
    (closeContext address generation : EngineAct τ ε Unit).run s =
      ((),
        { s with
          world := s.world.withFiles
            ((s.registry.closeContext address generation).run s.world.host.files).2
          registry :=
            ((s.registry.closeContext address generation).run s.world.host.files).1 }) := rfl

end EngineAct

namespace Watched

open EngineAct

variable {τ ε α β : Type}

instance : Monad (Watched τ ε) where
  pure value := ⟨pure value, fun _ => []⟩
  bind told f :=
    { act := told.act >>= fun value => (f value).act
      moments := fun s =>
        told.moments s ++ (f (told.act.run s).1).moments (told.act.run s).2 }

@[simp] theorem act_pure (value : α) :
    (pure value : Watched τ ε α).act = (pure value : EngineAct τ ε α) := rfl

@[simp] theorem act_bind (told : Watched τ ε α) (f : α → Watched τ ε β) :
    (told >>= f).act = told.act >>= fun value => (f value).act := rfl

@[simp] theorem moments_pure (value : α) (s : EngineState τ ε) :
    (pure value : Watched τ ε α).moments s = [] := rfl

@[simp] theorem moments_bind (told : Watched τ ε α) (f : α → Watched τ ε β)
    (s : EngineState τ ε) :
    (told >>= f).moments s =
      told.moments s ++ (f (told.act.run s).1).moments (told.act.run s).2 := rfl

/-- An act without deeds. -/
def quietly (act : EngineAct τ ε α) : Watched τ ε α := ⟨act, fun _ => []⟩

/-- Opening a context is a deed when it succeeds. -/
def opening (address : String) : Watched τ ε (Except RegistryError Generation) where
  act := openContext address
  moments s :=
    match ((openContext address : EngineAct τ ε _).run s).1 with
    | .ok generation => [⟨.opened address generation, s⟩]
    | .error _ => []

/-- Asking a bound entry is a deed. -/
def asking (request : Request) (context : BoundContext ε) (call : Act τ (α × ε)) :
    Watched τ ε α where
  act := Engine.ask call
  moments s := [⟨.asked request context, s⟩]

@[simp] theorem act_quietly (act : EngineAct τ ε α) : (quietly act).act = act := rfl

@[simp] theorem moments_quietly (act : EngineAct τ ε α) (s : EngineState τ ε) :
    (quietly act).moments s = [] := rfl

@[simp] theorem act_opening (address : String) :
    (opening address : Watched τ ε _).act = openContext address := rfl

@[simp] theorem act_asking (request : Request) (context : BoundContext ε)
    (call : Act τ (α × ε)) : (asking request context call).act = Engine.ask call := rfl

@[simp] theorem moments_asking (request : Request) (context : BoundContext ε)
    (call : Act τ (α × ε)) (s : EngineState τ ε) :
    (asking request context call).moments s = [⟨.asked request context, s⟩] := rfl

variable (e : Engine τ ε)

def bindImage (address : String) (image : ArtifactImage) :
    Watched τ ε (Option (BoundContext ε)) := do
  match ← opening address with
  | .error _ => pure none
  | .ok generation =>
      let config := e.environment.config
      let request := ⟨address, generation, image, config.entryType, config.host.endpoint⟩
      match ← quietly (inWorld (e.loader.bindEntry request)) with
      | .ok entry =>
          let context := ⟨generation, entry⟩
          quietly (setSlot (.loaded image (some context)))
          pure (some context)
      | .error _ =>
          quietly (closeContext address generation)
          pure none

def ensureBound : Watched τ ε (Option (BoundContext ε)) := do
  let address ← quietly address
  match ← quietly slot with
  | .unloaded => pure none
  | .loaded image none => bindImage e address image
  | .loaded image (some context) =>
      match ← quietly (e.dropOutdated address image context) with
      | some context => pure (some context)
      | none => bindImage e address image

def setup : Watched τ ε (Except ScriptFault (Option MethodRunResult)) := do
  match ← ensureBound e with
  | none => pure (.ok none)
  | some context =>
      match ← asking .setup context (e.loader.capabilities.setup context.entry) with
      | .error fault => pure (.error fault)
      | .ok result =>
          let activated := result.returnValue || (← quietly program).willRun
          if activated then
            let now ← quietly (inWorld Act.now)
            quietly (editProgram fun p => { p with activationTime := some now })
          pure (.ok (some { result with returnValue := activated }))

def run (options : String) : Watched τ ε (Except ScriptFault (Option MethodRunResult)) := do
  match ← ensureBound e with
  | none => pure (.ok none)
  | some context =>
      let result ← asking (.run options) context
        (e.loader.capabilities.run context.entry options)
      let now ← quietly (inWorld Act.now)
      quietly (editProgram fun p => { p with triggerTime := some now })
      pure (result.map some)

def reset : Watched τ ε (Except ScriptFault Unit) := do
  match (← quietly slot).context? with
  | none => pure (.ok ())
  | some context =>
      if ← quietly (inWorld fun w => (e.loader.capabilities.supportsReset context.entry w, w)) then
        asking .reset context (e.loader.capabilities.reset context.entry)
      else pure (.ok ())

def unload : Watched τ ε Unit := do
  let _ ← reset e
  quietly (editProgram fun p => { p with activationTime := none, triggerTime := none })
  quietly e.teardown

def dispose : Watched τ ε Unit := do
  if (← quietly slot).isLoaded then unload e

@[simp] theorem act_bindImage (address : String) (image : ArtifactImage) :
    (bindImage e address image).act = e.bindImage address image := by
  simp only [bindImage, Engine.bindImage, act_bind, act_opening]
  congr 1
  funext opened
  cases opened with
  | error _ => rfl
  | ok generation =>
      simp only [act_bind, act_quietly]
      congr 1
      funext bound
      cases bound <;> rfl

@[simp] theorem act_ensureBound : (ensureBound e).act = e.ensureBound := by
  simp only [ensureBound, Engine.ensureBound, act_bind, act_quietly]
  congr 1
  funext address
  congr 1
  funext current
  cases current with
  | unloaded => rfl
  | loaded image context =>
      cases context with
      | none => simp
      | some context =>
          simp only [act_bind, act_quietly]
          congr 1
          funext kept
          cases kept <;> simp

theorem act_setup : (setup e).act = e.setup := by
  simp only [setup, Engine.setup, act_bind, act_ensureBound]
  congr 1
  funext bound
  cases bound with
  | none => rfl
  | some context =>
      simp only [act_bind, act_asking]
      congr 1
      funext answer
      cases answer with
      | error fault => rfl
      | ok result =>
          simp only [act_bind, act_quietly]
          congr 1
          funext p
          split <;> rfl

theorem act_run (options : String) : (run e options).act = e.run options := by
  simp only [run, Engine.run, act_bind, act_ensureBound]
  congr 1
  funext bound
  cases bound <;> rfl

@[simp] theorem act_reset : (reset e).act = e.reset := by
  simp only [reset, Engine.reset, act_bind, act_quietly]
  congr 1
  funext current
  cases current.context? with
  | none => rfl
  | some context =>
      simp only [act_bind, act_quietly]
      congr 1
      funext supported
      cases supported <;> rfl

@[simp] theorem act_unload : (unload e).act = e.unload := by
  simp only [unload, Engine.unload, act_bind, act_reset, act_quietly]

theorem act_dispose : (dispose e).act = e.dispose := by
  simp only [dispose, Engine.dispose, act_bind, act_quietly]
  congr 1
  funext current
  split <;> simp

end Watched

end Automation
