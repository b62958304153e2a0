import Automation.CommandLine.Arguments
import Automation.CommandLine.Report
import Automation.Compiler.Command
import Automation.Config.File
import Automation.Site
import Automation.Surroundings

/-
What the commands do.

A command that concerns a program builds an engine for it, lets the engine work once, and gives
everything up again, whatever has come out.
-/

namespace Automation

namespace CommandLine

open EngineAct

variable {τ ε : Type}

/-- What engines are built with. -/
structure Equipment (τ ε : Type) where
  compiler : CompilerConfig → Compiler τ
  /-- The loader that keeps snapshots below a directory, with an extension. -/
  loader : Path → String → UnitLoader τ ε

/-- The form in which a result is printed: the method, and the result's own fields. -/
def resultJson (method : String) (r : MethodRunResult) : Json :=
  .object
    [ ("method", .text method), ("return_value", .boolean r.returnValue), ("state", r.state) ]

/-- Compile the program and print the errors. -/
def compileProgram (e : Engine τ ε) : EngineAct τ ε Report := do
  let errors ← e.compile
  let code := if errors.isEmpty then ExitCode.done else .compileFailed
  pure (.ofJson code (errors.map ProgramError.toJson))

/-- Invoke `run`, after something has been printed. -/
def invokeRun (e : Engine τ ε) (options : String) (printed : List Json) :
    EngineAct τ ε Report := do
  match ← e.run options with
  | .ok (some result) => pure (.ofJson .done (printed ++ [resultJson "run" result]))
  | .ok none => pure (.ofJson .notExecuted printed)
  | .error fault =>
      let error ← e.formattedError fault false
      pure (.ofJson .faulted (printed ++ [error.toJson]))

/-- Ask `setup`, and invoke `run` when it agrees. -/
def invokeSetup (e : Engine τ ε) (options : String) : EngineAct τ ε Report := do
  match ← e.setup with
  | .ok (some result) =>
      let printed := [resultJson "setup" result]
      if result.returnValue then invokeRun e options printed else pure (.ofJson .done printed)
  | .ok none => pure (.ofJson .notExecuted [])
  | .error fault =>
      let error ← e.formattedError fault true
      pure (.ofJson .faulted [error.toJson])

/-- Load the committed artifact and invoke it. -/
def runProgram (e : Engine τ ε) (options : String) (withSetup : Bool) : EngineAct τ ε Report := do
  if ← e.load then
    if withSetup then invokeSetup e options else invokeRun e options []
  else pure ⟨.notExecuted, "", Report.line (← program).scriptErrors⟩

/-- An act at a site that may fail. -/
abbrev Work (τ ε : Type) := ExceptT Failure (SiteAct τ ε)

/-- A task on the files. -/
def task {α : Type} (t : FileTask α) : Work τ ε α := ExceptT.mk (SiteAct.inWorld (Act.task t))

/-- Read a source. -/
def readSource (activity : Path → Activity) (path : Path) : Work τ ε String :=
  task (FileTask.inspect (activity path) (·.readText path))

/-- The configuration as the commands on programs see it: its relative directories are next to its
file. -/
def rooted (config : EngineConfig) (path : Path) : EngineConfig :=
  match EngineConfig.directoryOf? path with
  | some directory => config.rootedAt directory
  | none => config

/-- The program of some arguments. -/
def programOf (arguments : ProgramArguments) : Work τ ε ProgramBlock := do
  let source ← readSource .readMainBody arguments.mainBody
  let trigger ← arguments.trigger.mapM (readSource .readTriggerCondition)
  pure { ProgramBlock.ofSource arguments.address source with
    scriptSetup := trigger, isEnabled := true }

/-- Build an engine in an environment that nobody else holds. -/
def buildEngine (equipment : Equipment τ ε) (config : EngineConfig)
    (arguments : ProgramArguments) : Work τ ε Nat := do
  let block ← programOf arguments
  let (id, environment) ← ExceptT.mk (SiteAct.startEnvironment config)
  let program ← ExceptT.lift (SiteAct.addProgram block)
  let engine ← ExceptT.lift (SiteAct.addEngine id program (equipment.compiler config.compiler)
    (equipment.loader environment.snapshotDir config.artifactExtension))
  ExceptT.lift (SiteAct.giveUpEnvironment id)
  pure engine

/-- Let an engine work once and give it up. -/
def useEngine (equipment : Equipment τ ε) (config : EngineConfig) (arguments : ProgramArguments)
    (work : Engine τ ε → EngineAct τ ε Report) : Work τ ε Report := do
  let engine ← buildEngine equipment config arguments
  let report ← ExceptT.lift (SiteAct.withEngine engine work)
  ExceptT.lift (SiteAct.removeEngine engine)
  pure (report.getD ⟨.notExecuted, "", ""⟩)

/-- Do what is to be done. -/
def perform (equipment : Equipment τ ε) (invocation : Invocation) : Work τ ε Report := do
  let path := invocation.configPath
  let config ← task (EngineConfig.load path)
  match invocation.command with
  | .compile arguments =>
      useEngine equipment (rooted config path) arguments compileProgram
  | .run arguments options withSetup =>
      useEngine equipment (rooted config path) arguments fun e => runProgram e options withSetup
  | .config true => do
      task (EngineConfig.save path config)
      pure ⟨.done, "", ""⟩
  | .config false => pure ⟨.done, config.written, ""⟩

/-- Do what is to be done in a world, and report. -/
def execute (equipment : Equipment τ ε) (invocation : Invocation) : Act τ Report := fun w =>
  let (outcome, site) := (perform equipment invocation).run.run (Site.ofWorld w)
  (match outcome with
    | .ok report => report
    | .error f => .ofFailure f, site.world)

/-- Compilers that are tools, and units that are processes. -/
def standardEquipment : Equipment Surroundings Entry :=
  ⟨fun config => Compiler.command runTool (.ofConfig config), Entry.isolatedLoader⟩

end CommandLine

end Automation
