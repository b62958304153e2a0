import Automation.Engine.Compile
import Automation.Engine.Invocation

/-
Environments, programs and engines side by side.

Engines share environments, and may share programs.  An environment stays for as long as somebody
holds it: the one who started it, or an engine.
-/

namespace Automation

/-- An environment in use. -/
structure SharedEnvironment where
  environment : Environment
  registry : Registry
  /-- Whether it is held by somebody besides engines. -/
  isHeld : Bool

/-- An engine in use, and what it does not share. -/
structure EngineRecord (τ ε : Type) where
  environment : Nat
  program : Nat
  compiler : Compiler τ
  loader : UnitLoader τ ε
  slot : Slot ε
  notices : List Notice

/-- Everything that goes on in a world. -/
structure Site (τ ε : Type) where
  world : World τ
  environments : Table Nat SharedEnvironment
  programs : Table Nat ProgramBlock
  engines : Table Nat (EngineRecord τ ε)
  /-- The number for what comes next. -/
  next : Nat

/-- An act at a site. -/
abbrev SiteAct (τ ε : Type) := StateM (Site τ ε)

namespace Site

variable {τ ε α : Type}

/-- A site where nothing goes on. -/
def ofWorld (w : World τ) : Site τ ε := ⟨w, [], [], [], 0⟩

/-- All that an engine works on. -/
def engineState (s : Site τ ε) (shared : SharedEnvironment) (p : ProgramBlock)
    (record : EngineRecord τ ε) : EngineState τ ε :=
  ⟨s.world, shared.registry, p, record.slot, record.notices⟩

/-- The site after an engine has worked. -/
def withEngineState (s : Site τ ε) (id : Nat) (shared : SharedEnvironment)
    (record : EngineRecord τ ε) (after : EngineState τ ε) : Site τ ε :=
  { s with
    world := after.world
    environments :=
      Table.put record.environment { shared with registry := after.registry } s.environments
    programs := Table.put record.program after.program s.programs
    engines := Table.put id { record with slot := after.slot, notices := after.notices } s.engines }

/-- Whether somebody holds an environment. -/
def isInUse (s : Site τ ε) (id : Nat) : Bool :=
  ((Table.get? id s.environments).map (·.isHeld)).getD false ||
    s.engines.any fun entry => entry.2.environment == id

end Site

namespace SiteAct

variable {τ ε α : Type}

/-- An act in the world. -/
def inWorld (act : Act τ α) : SiteAct τ ε α := fun s =>
  let (value, world) := act.run s.world
  (value, { s with world := world })

/-- The number for what comes next. -/
def takeNumber : SiteAct τ ε Nat := fun s => (s.next, { s with next := s.next + 1 })

/-- Start an environment that its starter holds. -/
def startEnvironment (config : EngineConfig) :
    SiteAct τ ε (Except Failure (Nat × Environment)) := do
  let started ← inWorld fun w =>
    (Act.freshTask fun n => do
      let (environment, registry, next) ← Environment.start config w.host.processes n
      pure ((environment, registry), next)).run w
  match started with
  | .error f => pure (.error f)
  | .ok (environment, registry) => do
      let id ← takeNumber
      modify fun s =>
        { s with environments := Table.put id ⟨environment, registry, true⟩ s.environments }
      pure (.ok (id, environment))

/-- Release an environment that nobody holds any more. -/
def releaseUnused (id : Nat) : SiteAct τ ε Unit := do
  let s ← get
  if !s.isInUse id then
    match Table.get? id s.environments with
    | none => pure ()
    | some shared =>
        inWorld (Act.files shared.environment.release)
        modify fun s => { s with environments := Table.erase id s.environments }

/-- The starter of an environment gives it up. -/
def giveUpEnvironment (id : Nat) : SiteAct τ ε Unit := do
  modify fun s =>
    match Table.get? id s.environments with
    | none => s
    | some shared =>
        { s with environments := Table.put id { shared with isHeld := false } s.environments }
  releaseUnused id

/-- Use the registry of an environment. -/
def withRegistry (id : Nat) (act : Registry → FileAction (α × Registry)) :
    SiteAct τ ε (Option α) := do
  match Table.get? id (← get).environments with
  | none => pure none
  | some shared =>
      let (value, registry) ← inWorld (Act.files (act shared.registry))
      modify fun s =>
        { s with
          environments := Table.put id { shared with registry := registry } s.environments }
      pure (some value)

/-- Keep a program. -/
def addProgram (p : ProgramBlock) : SiteAct τ ε Nat := do
  let id ← takeNumber
  modify fun s => { s with programs := Table.put id p s.programs }
  pure id

/-- The program of a number. -/
def program? (id : Nat) : SiteAct τ ε (Option ProgramBlock) := do
  pure (Table.get? id (← get).programs)

/-- Change a program. -/
def editProgram (id : Nat) (f : ProgramBlock → ProgramBlock) : SiteAct τ ε Unit :=
  modify fun s =>
    match Table.get? id s.programs with
    | none => s
    | some p => { s with programs := Table.put id (f p) s.programs }

/-- Make an engine for a program in an environment. -/
def addEngine (environment program : Nat) (compiler : Compiler τ) (loader : UnitLoader τ ε) :
    SiteAct τ ε Nat := do
  let id ← takeNumber
  modify fun s =>
    { s with
      engines := Table.put id ⟨environment, program, compiler, loader, .unloaded, []⟩ s.engines }
  pure id

/-- Let an engine work. -/
def withEngine (id : Nat) (act : Engine τ ε → EngineAct τ ε α) : SiteAct τ ε (Option α) := do
  let s ← get
  let found := do
    let record ← Table.get? id s.engines
    let shared ← Table.get? record.environment s.environments
    let p ← Table.get? record.program s.programs
    pure (record, shared, p)
  match found with
  | none => pure none
  | some (record, shared, p) =>
      let engine := ⟨shared.environment, record.compiler, record.loader⟩
      let (value, after) := (act engine).run (s.engineState shared p record)
      set (s.withEngineState id shared record after)
      pure (some value)

/-- Give up an engine, and with it its hold on the environment. -/
def removeEngine (id : Nat) : SiteAct τ ε Unit := do
  match Table.get? id (← get).engines with
  | none => pure ()
  | some record =>
      let _ ← withEngine id Engine.dispose
      modify fun s => { s with engines := Table.erase id s.engines }
      releaseUnused record.environment

end SiteAct

end Automation
