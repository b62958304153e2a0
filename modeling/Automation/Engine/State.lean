import Automation.Compiler.Basic
import Automation.Loading.Basic

/-
What an engine is and what it works on.

An engine serves one program.  It is made of an environment, a compiler and a loader that never
change; the world, the registry of its environment, the program and its own slot do.
-/

namespace Automation

/-- What can be seen of the life of a unit. -/
inductive UnitState where
  | unloaded
  /-- The artifact has been read; the unit is not bound yet, or could not be. -/
  | loadedUnbound
  | loadedBound
deriving Repr, DecidableEq

/-- A bound entry and the generation it was bound for. -/
structure BoundContext (ε : Type) where
  generation : Generation
  entry : ε

/-- What an engine has loaded. -/
inductive Slot (ε : Type) where
  | unloaded
  | loaded (image : ArtifactImage) (context : Option (BoundContext ε))

namespace Slot

variable {ε : Type}

def state : Slot ε → UnitState
  | unloaded => .unloaded
  | loaded _ none => .loadedUnbound
  | loaded _ (some _) => .loadedBound

/-- The bound context, if there is one. -/
def context? : Slot ε → Option (BoundContext ε)
  | unloaded => none
  | loaded _ context => context

/-- The generation of the bound context, if there is one. -/
def generation? (slot : Slot ε) : Option Generation := slot.context?.map BoundContext.generation

def isLoaded : Slot ε → Bool
  | unloaded => false
  | loaded _ _ => true

/-- The slot with another entry in its bound context. -/
def withEntry (entry : ε) : Slot ε → Slot ε
  | loaded image (some context) => loaded image (some { context with entry := entry })
  | slot => slot

end Slot

/-- What an engine tells everybody. -/
structure Notice where
  address : String
  property : String
  value : String
deriving Repr, DecidableEq

/-- The parts of an engine that never change. -/
structure Engine (τ ε : Type) where
  environment : Environment
  compiler : Compiler τ
  loader : UnitLoader τ ε

/-- All that an engine works on. -/
structure EngineState (τ ε : Type) where
  world : World τ
  registry : Registry
  program : ProgramBlock
  slot : Slot ε
  /-- The notices given so far. -/
  notices : List Notice

/-- An act of an engine. -/
abbrev EngineAct (τ ε : Type) := StateM (EngineState τ ε)

namespace EngineAct

variable {τ ε α : Type}

/-- An act in the world. -/
def inWorld (act : Act τ α) : EngineAct τ ε α := fun s =>
  let (value, world) := act.run s.world
  (value, { s with world := world })

def program : EngineAct τ ε ProgramBlock := fun s => (s.program, s)

/-- The address of the program. -/
def address : EngineAct τ ε String := fun s => (s.program.address, s)

def editProgram (f : ProgramBlock → ProgramBlock) : EngineAct τ ε Unit := fun s =>
  ((), { s with program := f s.program })

def slot : EngineAct τ ε (Slot ε) := fun s => (s.slot, s)

def setSlot (slot : Slot ε) : EngineAct τ ε Unit := fun s => ((), { s with slot := slot })

/-- Open a context of an address in the registry. -/
def openContext (address : String) : EngineAct τ ε (Except RegistryError Generation) := fun s =>
  let ((result, registry), world) := (Act.files (s.registry.openContext address)).run s.world
  (result, { s with world := world, registry := registry })

/-- Retire a generation of an address in the registry. -/
def closeContext (address : String) (generation : Generation) : EngineAct τ ε Unit := fun s =>
  let (registry, world) :=
    (Act.files (s.registry.closeContext address generation)).run s.world
  ((), { s with world := world, registry := registry })

/-- Whether a generation of an address is live. -/
def isLive (address : String) (generation : Generation) : EngineAct τ ε Bool := fun s =>
  (s.registry.isLive address generation, s)

/-- Give a notice. -/
def notify (notice : Notice) : EngineAct τ ε Unit := fun s =>
  ((), { s with notices := s.notices ++ [notice] })

end EngineAct

end Automation
