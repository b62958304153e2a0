import Automation.Path
import Automation.Text.Blank
import Automation.Text.Quoted

/-
The configuration of an engine: where things are kept, how programs are compiled, and what every
program is given.  Each field has a value of its own that works for a directory `programs` next to
the working directory.
-/

namespace Automation

/-- How programs are compiled. -/
structure CompilerConfig where
  /-- The first words of the command. -/
  command : List String
  /-- Libraries that every compile refers to. -/
  references : List String
  timeoutSecs : Nat
  /-- How many bytes are kept of each of the two outputs. -/
  outputLimitBytes : Nat
deriving Repr, DecidableEq, Inhabited

/-- What every program is given. -/
structure HostConfig where
  endpoint : String
deriving Repr, DecidableEq, Inhabited

structure EngineConfig where
  /-- The directory with one stable artifact for each address. -/
  programsDir : Path
  /-- The directory below which snapshots of loaded artifacts are kept. -/
  shadowDir : Path
  /-- The template; the built-in one is used when there is none. -/
  templatePath : Option Path
  /-- The full name of the type that every program exposes. -/
  entryType : String
  /-- The extension of artifacts, without its dot. -/
  artifactExtension : String
  /-- The extensions of debug files, without their dots. -/
  debugExtensions : List String
  compiler : CompilerConfig
  host : HostConfig
deriving Repr, DecidableEq, Inhabited

/-- The configuration of a compiler that nothing is said about. -/
def CompilerConfig.standard : CompilerConfig := ⟨["scriptc"], [], 120, 1000000⟩

def HostConfig.standard : HostConfig := ⟨"local"⟩

/-- Why a configuration is refused. -/
inductive ConfigError where
  | emptyEntryType
  | badExtension (field extension : String)
  | noDebugExtensions
  | sameDirectories
  | noCommand
  | noTimeout
  | noOutputLimit
deriving Repr, DecidableEq

/-- The wording of a refusal. -/
def ConfigError.message : ConfigError → String
  | .emptyEntryType => "entry_type must be non-empty"
  | .badExtension field extension =>
      field ++ " entries must be bare extensions, got " ++ Text.quoted extension
  | .noDebugExtensions => "debug_extensions must be a non-empty array"
  | .sameDirectories => "shadow_dir must differ from programs_dir"
  | .noCommand => "compiler.command must be a non-empty array"
  | .noTimeout => "compiler.timeout_secs must be > 0"
  | .noOutputLimit => "compiler.output_limit_bytes must be > 0"

namespace EngineConfig

/-- The configuration that nothing is said about. -/
def standard : EngineConfig :=
  { programsDir := ⟨"programs"⟩
    shadowDir := ⟨"programs/.shadow"⟩
    templatePath := none
    entryType := "automation.scripting.ScriptingInstance"
    artifactExtension := "unit"
    debugExtensions := ["mdb", "pdb"]
    compiler := .standard
    host := .standard }

/-- An extension without dots and slashes, so that adding it makes exactly one name. -/
def isBareExtension (extension : String) : Bool :=
  !extension.isEmpty && extension.toList.all fun c => c != '.' && c != '/'

/-- A command whose first word says something. -/
def isCommand : List String → Bool
  | [] => false
  | program :: _ => !Text.isAllBlank program

/-- Check a configuration.  The first thing wrong with it counts. -/
def validate (c : EngineConfig) : Except ConfigError Unit :=
  if Text.isAllBlank c.entryType then .error .emptyEntryType
  else if !isBareExtension c.artifactExtension then
    .error (.badExtension "artifact_extension" c.artifactExtension)
  else if c.debugExtensions.isEmpty then .error .noDebugExtensions
  else
    match c.debugExtensions.find? fun extension => !isBareExtension extension with
    | some extension => .error (.badExtension "debug_extensions" extension)
    | none =>
        if c.shadowDir.same c.programsDir then .error .sameDirectories
        else if !isCommand c.compiler.command then .error .noCommand
        else if c.compiler.timeoutSecs = 0 then .error .noTimeout
        else if c.compiler.outputLimitBytes = 0 then .error .noOutputLimit
        else .ok ()

/-- Read the relative paths of a configuration as seen from a directory. -/
def rootedAt (c : EngineConfig) (base : Path) : EngineConfig :=
  { c with
    programsDir := base.join c.programsDir
    shadowDir := base.join c.shadowDir
    templatePath := c.templatePath.map base.join }

end EngineConfig

end Automation
