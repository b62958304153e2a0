import Automation.Config.Basic
import Automation.Files.Action
import Automation.Template

/-
Failures of the engine's own work, as opposed to faults of programs.

A failure has a cause, and says what was being done when it came up, from the outside in.
-/

namespace Automation

/-- What was being done. -/
inductive Activity where
  | createDirectory (p : Path)
  | createShadowDirectory (p : Path)
  | createSnapshotDirectory (p : Path)
  | setAsideDebugFile (p : Path)
  | moveDebugFile (old new : Path)
  | replaceArtifact (p : Path)
  | readArtifact (p : Path)
  | readDebugFile (p : Path)
  | remove (p : Path)
  | readTemplate (p : Path)
  | parseTemplate (p : Path)
  | readFile (p : Path)
  | parseFile (p : Path)
  | writeTemporaryConfig (p : Path)
  | replaceConfig (p : Path)
  | writeSource (p : Path)
  | runCompiler
  | spawn (program : String)
  | readMainBody (p : Path)
  | readTriggerCondition (p : Path)
  | commitArtifact
deriving Repr, DecidableEq

/-- The wording of an activity. -/
def Activity.text : Activity → String
  | .createDirectory p => "create directory " ++ p.text
  | .createShadowDirectory p => "create shadow dir " ++ p.text
  | .createSnapshotDirectory p => "create snapshot dir in " ++ p.text
  | .setAsideDebugFile p => "set aside debug file " ++ p.text
  | .moveDebugFile old new => "move debug file " ++ old.text ++ " to " ++ new.text
  | .replaceArtifact p => "replace artifact " ++ p.text
  | .readArtifact p => "read artifact " ++ p.text
  | .readDebugFile p => "read debug file " ++ p.text
  | .remove p => "remove " ++ p.text
  | .readTemplate p => "read template " ++ p.text
  | .parseTemplate p => "parse template " ++ p.text
  | .readFile p => "read " ++ p.text
  | .parseFile p => "parse " ++ p.text
  | .writeTemporaryConfig p => "write temp config " ++ p.text
  | .replaceConfig p => "replace config " ++ p.text
  | .writeSource p => "write unit source " ++ p.text
  | .runCompiler => "run compiler"
  | .spawn program => "spawn " ++ Text.quoted program
  | .readMainBody p => "read main body " ++ p.text
  | .readTriggerCondition p => "read trigger condition " ++ p.text
  | .commitArtifact => "commit artifact"

/-- What went wrong. -/
inductive Cause where
  | os (e : OsError)
  | osAt (e : OsError) (p : Path)
  | config (e : ConfigError)
  | template (e : TemplateError)
  | invalidAddress (address : String)
  | missingStaged (p : Path)
  /-- The configuration file is not well written or has a field of the wrong type. -/
  | malformedConfig
  | emptyCommand
  | timedOut (seconds : Nat)
  | compilerFailed (code : Option Nat) (stderr : String)
  | noArtifact (p : Path)
  | nothingScripted
  | reported (text : String)
deriving Repr, DecidableEq

namespace Cause

/-- A number of seconds; none at all is counted in the smallest unit. -/
def secondsText (seconds : Nat) : String :=
  if seconds = 0 then "0ns" else toString seconds ++ "s"

/-- The exit code of a process, which one that was killed does not have. -/
def codeText : Option Nat → String
  | some code => "Some(" ++ toString code ++ ")"
  | none => "None"

/-- The wording of a cause. -/
def text : Cause → String
  | .os e => e.message
  | .osAt e p => e.message ++ " at path " ++ Text.quoted p.text
  | .config e => e.message
  | .template e => e.message
  | .invalidAddress address => "invalid program address " ++ Text.quoted address
  | .missingStaged p => "missing staged artifact " ++ p.text
  | .malformedConfig => "TOML parse error"
  | .emptyCommand => "compiler command is empty"
  | .timedOut seconds => "compiler timed out after " ++ secondsText seconds
  | .compilerFailed code stderr =>
      "compiler failed with status " ++ codeText code ++ ": " ++ stderr
  | .noArtifact p => "compiler produced no artifact at " ++ p.text
  | .nothingScripted => "no scripted compile left"
  | .reported text => text

end Cause

/-- A failure: what was being done, from the outside in, and what went wrong. -/
structure Failure where
  during : List Activity
  cause : Cause
deriving Repr, DecidableEq

namespace Failure

def ofCause (cause : Cause) : Failure := ⟨[], cause⟩

/-- The failure seen from an activity around it. -/
def within (activity : Activity) (f : Failure) : Failure :=
  { f with during := activity :: f.during }

/-- The wording of a failure. -/
def message (f : Failure) : String :=
  ": ".intercalate (f.during.map Activity.text ++ [f.cause.text])

end Failure

/-- An action on files that may fail. -/
abbrev FileTask (α : Type) := ExceptT Failure FileAction α

namespace FileTask

variable {α : Type}

/-- Look at the files. -/
def observe (f : FileTree → α) : FileTask α := ExceptT.lift (FileAction.observe f)

/-- An action that the system may refuse, as part of an activity. -/
def during (activity : Activity) (action : FileAction (Except OsError α)) : FileTask α :=
  ExceptT.mk do
    match ← action with
    | .ok value => pure (.ok value)
    | .error e => pure (.error ⟨[activity], .os e⟩)

/-- Look at the files in a way that the system may refuse, as part of an activity. -/
def inspect (activity : Activity) (f : FileTree → Except OsError α) : FileTask α :=
  during activity (FileAction.observe f)

/-- A task as part of an activity. -/
def within (activity : Activity) (task : FileTask α) : FileTask α :=
  ExceptT.mk do
    match ← task.run with
    | .ok value => pure (.ok value)
    | .error f => pure (.error (f.within activity))

/-- A value that may not be there. -/
def ofExcept (value : Except Failure α) : FileTask α := ExceptT.mk (pure value)

end FileTask

end Automation
