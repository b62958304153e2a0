import Automation.ArtifactStore
import Automation.Registry

/-
What the engines of one process share.

Starting up prepares the programs directory, gives the environment a snapshot directory of its own
below the shadow directory, and reads the template.  Snapshot directories are named after the
process they belong to, and those of processes that are gone are removed on the way.
-/

namespace Automation

/-- The processes that a host knows about. -/
structure ProcessTable where
  /-- The process that is asking. -/
  self : Nat
  /-- The others that are there. -/
  others : List Nat
deriving Repr, DecidableEq

/-- A process that exists. -/
def ProcessTable.isAlive (table : ProcessTable) (pid : Nat) : Bool :=
  pid == table.self || table.others.contains pid

/-- What the engines of one process share, apart from the registry of their contexts. -/
structure Environment where
  config : EngineConfig
  store : ArtifactStore
  template : Template
  /-- The directory for the snapshots of loaded artifacts. -/
  snapshotDir : Path
deriving Repr, DecidableEq

namespace Environment

/-- The directory below the shadow directory that holds the claims. -/
def claimsName : String := ".claims"

/-- The least number that is not the number of a process. -/
def pidLimit : Nat := 0x100000000

/-- A number written with digits, possibly after a plus sign. -/
def natOfText? (cs : List Char) : Option Nat :=
  let ds := match cs with
    | '+' :: rest => rest
    | _ => cs
  if ds = [] ∨ !ds.all Char.isDigit then none
  else some (ds.foldl (fun n c => n * 10 + (c.toNat - '0'.toNat)) 0)

/-- The process that a snapshot directory belongs to, read off its name up to the first hyphen. -/
def ownerPid? (name : String) : Option Nat :=
  let cs := name.toList
  if cs.contains '-' then
    (natOfText? (cs.takeWhile (· ≠ '-'))).filter fun pid => pid < pidLimit
  else none

/-- A name in the shadow directory that belongs to a process that is gone. -/
def isDead (processes : ProcessTable) (name : String) : Bool :=
  match ownerPid? name with
  | some pid => !processes.isAlive pid
  | none => false

/-- Remove the snapshot directories of processes that are gone.  What cannot be removed stays. -/
def removeDeadSnapshots (processes : ProcessTable) (shadowRoot : Path) : FileAction Unit := do
  let names ← FileAction.observe fun t =>
    match t.list shadowRoot with
    | .ok found => (found.map Prod.fst).filter (isDead processes)
    | .error _ => []
  names.forM fun name => do
    let _ ← FileAction.perform (.removeTree (shadowRoot.child name))

/-- The letters and digits at the end of the name of a snapshot directory. -/
def snapshotWidth : Nat := 6

/-- The path of a snapshot directory, by the process it belongs to and its number. -/
def snapshotPath (processes : ProcessTable) (shadowRoot : Path) (n : Nat) : Path :=
  shadowRoot.child
    (toString processes.self ++ "-" ++ String.ofList (freshName snapshotWidth n))

/-- Make a snapshot directory that was not there; also the number to go on with. -/
def makeSnapshotDirectory (processes : ProcessTable) (shadowRoot : Path) (n : Nat) :
    FileTask (Path × Nat) := do
  let (path, used) ← FileTask.observe fun t =>
    firstFree (snapshotPath processes (t.absolute shadowRoot)) t (t.entries.length + 1) n
  match ← ExceptT.lift (FileAction.perform (.makeDirectory path)) with
  | .ok _ => pure (path, used + 1)
  | .error e => throw ⟨[.createSnapshotDirectory shadowRoot], .osAt e path⟩

/-- The template of a configuration. -/
def readTemplate (config : EngineConfig) : FileTask Template :=
  match config.templatePath with
  | none => pure .builtin
  | some path => do
      let text ← FileTask.inspect (.readTemplate path) (·.readText path)
      match Template.parse text with
      | .ok template => pure template
      | .error e => throw ⟨[.parseTemplate path], .template e⟩

/-- Start up: the environment, the registry of its contexts, and the number to go on with.  When
the template cannot be read, the snapshot directory goes away again. -/
def start (config : EngineConfig) (processes : ProcessTable) (n : Nat) :
    FileTask (Environment × Registry × Nat) := do
  match config.validate with
  | .error e => throw (.ofCause (.config e))
  | .ok _ => pure ()
  let store := ArtifactStore.ofConfig config
  store.ensureDirectories
  let claimsDir := config.shadowDir.child claimsName
  FileTask.during (.createShadowDirectory claimsDir) (FileAction.createDirectory claimsDir)
  ExceptT.lift (removeDeadSnapshots processes config.shadowDir)
  let (snapshotDir, next) ← makeSnapshotDirectory processes config.shadowDir n
  let owner := snapshotDir.fileName?.getD ""
  let registry := Registry.withClaims ⟨claimsDir, config.shadowDir, owner⟩
  match ← ExceptT.lift (readTemplate config).run with
  | .ok template => pure (⟨config, store, template, snapshotDir⟩, registry, next)
  | .error f => do
      let _ ← ExceptT.lift (FileAction.perform (.removeTree snapshotDir))
      throw f

/-- Give up an environment: its snapshot directory goes away, and its claims stay behind. -/
def release (e : Environment) : FileAction Unit := do
  let _ ← FileAction.perform (.removeTree e.snapshotDir)

end Environment

end Automation
