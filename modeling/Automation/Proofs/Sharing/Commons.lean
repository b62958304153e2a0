import Automation.Proofs.Sharing.Claims
import Mathlib.Data.List.Infix
import Mathlib.Logic.Function.Basic

/-
Environments that share a shadow root.

Processes start environments below one shadow root and give them up, die and leave everything
behind, open contexts and close them, in any order.  What they share is the files; the registry of
an environment is its own.  So what makes a program run in one environment at a time has to be
found in the files: every environment there is has its directory, and every live generation its
claim.
-/

namespace Automation

/-- A process, by its number and the directory it works in. -/
structure Process where
  id : Nat
  workingDirectory : Location
  isNumber : id < Environment.pidLimit
  isPlace : ∀ name ∈ workingDirectory, IsName name

/-- An environment that exists, with the process it is in and the registry of its contexts. -/
structure Tenant where
  process : Process
  environment : Environment
  registry : Registry

namespace Tenant

/-- The name of the directory of an environment, by which claims know it. -/
def owner (tenant : Tenant) : String := tenant.environment.snapshotDir.fileName?.getD ""

def shadowDir (tenant : Tenant) : Path := tenant.environment.config.shadowDir

/-- The claims that an environment starts with. -/
def claims (tenant : Tenant) : Claims :=
  ⟨tenant.shadowDir.child Environment.claimsName, tenant.shadowDir, tenant.owner⟩

end Tenant

/-- What is strictly below a location. -/
def IsBelow (root l : Location) : Prop := ∃ name rest, l = root ++ name :: rest

/-- A path that does not pass below a location on its way. -/
def StaysOutside (root wd : Location) (p : Path) : Prop :=
  ∀ before, before <+: p.names → ¬IsBelow root (FileTree.lead (p.origin wd) before)

instance (root l : Location) : Decidable (IsBelow root l) :=
  decidable_of_iff (root <+: l ∧ root.length < l.length) <| by
    constructor
    · rintro ⟨⟨below, rfl⟩, hlength⟩
      cases below with
      | nil => simp at hlength
      | cons name rest => exact ⟨name, rest, rfl⟩
    · rintro ⟨name, rest, rfl⟩
      exact ⟨List.prefix_append _ _, by simp⟩

instance (root wd : Location) (p : Path) : Decidable (StaysOutside root wd p) :=
  decidable_of_iff (∀ before ∈ p.names.inits, ¬IsBelow root (FileTree.lead (p.origin wd) before))
    (by simp only [List.mem_inits]; exact Iff.rfl)

/-- The files of a host, and the environments on it by their numbers. -/
structure Commons where
  files : FileTree
  tenants : Nat → Option Tenant

namespace FileTree

/-- The files from where a process works. -/
def seenBy (t : FileTree) (p : Process) : FileTree :=
  { t with workingDirectory := p.workingDirectory }

end FileTree

namespace Commons

variable {α : Type}

/-- A process starts an environment, which gets a number if the start succeeds. -/
def start (c : Commons) (id : Nat) (p : Process) (config : EngineConfig) (others : List Nat)
    (n : Nat) : Commons :=
  match FileAction.run (Environment.start config ⟨p.id, others⟩ n).run (c.files.seenBy p) with
  | (.ok (environment, registry, _), files) =>
      ⟨files, Function.update c.tenants id (some ⟨p, environment, registry⟩)⟩
  | (.error _, files) => ⟨files, c.tenants⟩

/-- An environment is given up. -/
def drop (c : Commons) (id : Nat) : Commons :=
  match c.tenants id with
  | none => c
  | some tenant =>
      ⟨(tenant.environment.release.run (c.files.seenBy tenant.process)).2,
        Function.update c.tenants id none⟩

/-- A process dies, and its environments are no more. -/
def death (c : Commons) (pid : Nat) : Commons :=
  ⟨c.files, fun id => (c.tenants id).filter fun tenant => tenant.process.id ≠ pid⟩

/-- Use the registry of an environment. -/
def withRegistry (c : Commons) (id : Nat) (act : Registry → FileAction (α × Registry)) :
    Option α × Commons :=
  match c.tenants id with
  | none => (none, c)
  | some tenant =>
      match (act tenant.registry).run (c.files.seenBy tenant.process) with
      | ((value, registry), files) =>
          (some value,
            ⟨files, Function.update c.tenants id (some { tenant with registry := registry })⟩)

/-- Open a context in an environment. -/
def openContext (c : Commons) (id : Nat) (address : String) :
    Option (Except RegistryError Generation) × Commons :=
  c.withRegistry id (·.openContext address)

/-- Close a context in an environment. -/
def closeContext (c : Commons) (id : Nat) (address : String) (generation : Generation) :
    Commons :=
  (c.withRegistry id fun r => do pure ((), ← r.closeContext address generation)).2

/-- An environment that exists has a live generation. -/
def IsLive (c : Commons) (id : Nat) (address : String) : Prop :=
  ∃ tenant generation, c.tenants id = some tenant ∧
    tenant.registry.liveGeneration address = some generation

/-- An environment is given a generation when it asks for one. -/
def CanOpen (c : Commons) (id : Nat) (address : String) : Prop :=
  ∃ generation, (c.openContext id address).1 = some (.ok generation)

/-- A process that sees every process with an environment, and whose paths lead to the shadow root
and write nothing else below it. -/
structure CanStart (c : Commons) (root : Location) (p : Process) (config : EngineConfig)
    (others : List Nat) : Prop where
  alive : ∀ id tenant, c.tenants id = some tenant →
    (ProcessTable.mk p.id others).isAlive tenant.process.id = true
  shadow : config.shadowDir.destination p.workingDirectory = root
  shadowOutside : StaysOutside root p.workingDirectory config.shadowDir
  programsOutside : StaysOutside root p.workingDirectory
    (config.programsDir.child ArtifactStore.stagingName)

/-- Other files that have the same names below the shadow root and the same claims, and in which
every environment can still reach it. -/
structure LeavesAlone (c : Commons) (root : Location) (files : FileTree) : Prop where
  names : ∀ name, files.node? (root ++ [name]) = c.files.node? (root ++ [name])
  claims : ∀ name,
    files.node? (claimLocation root name) = c.files.node? (claimLocation root name)
  reaches : ∀ id tenant, c.tenants id = some tenant →
    (files.seenBy tenant.process).Reaches tenant.shadowDir root

/-- One whole operation. -/
inductive Step (root : Location) (c : Commons) : Commons → Prop
  | start {id : Nat} {p : Process} {config : EngineConfig} {others : List Nat} {n : Nat}
      (hfree : c.tenants id = none) (hstart : c.CanStart root p config others) :
      Step root c (c.start id p config others n)
  | drop (id : Nat) : Step root c (c.drop id)
  | death (pid : Nat) : Step root c (c.death pid)
  | openContext (id : Nat) {address : String} (haddress : isAddress address = true) :
      Step root c (c.openContext id address).2
  | closeContext (id : Nat) (address : String) (generation : Generation) :
      Step root c (c.closeContext id address generation)
  /-- Something happens elsewhere. -/
  | elsewhere {files : FileTree} (halone : c.LeavesAlone root files) :
      Step root c { c with files := files }

/-- What there can be after any number of operations, when at first there are no environments and
nothing is below the shadow root. -/
inductive Reachable (root : Location) : Commons → Prop
  | empty {files : FileTree} (hempty : ∀ l, IsBelow root l → files.node? l = none) :
      Reachable root ⟨files, fun _ => none⟩
  | step {c c' : Commons} (hreachable : Reachable root c) (hstep : c.Step root c') :
      Reachable root c'

end Commons

end Automation
