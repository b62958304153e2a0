import Automation.Config.Written
import Automation.Failure

/-
The configuration file.

A configuration is checked whenever it is loaded and before it is saved.  Saving writes a
temporary file beside the target and moves it over, so that the target holds either the old
configuration or the whole new one.
-/

namespace Automation

namespace EngineConfig

/-- A configuration, if there is nothing wrong with it. -/
def checked (c : EngineConfig) : FileTask EngineConfig :=
  FileTask.ofExcept <|
    match c.validate with
    | .ok _ => .ok c
    | .error e => .error (.ofCause (.config e))

/-- Load the configuration of a file; without the file it is the standard one. -/
def load (path : Path) : FileTask EngineConfig := do
  if ← FileTask.observe (·.exists? path) then
    let text ← FileTask.inspect (.readFile path) (·.readText path)
    match ofWritten? text with
    | some c => c.checked
    | none => throw ⟨[.parseFile path], .malformedConfig⟩
  else standard.checked

/-- The temporary file for a configuration. -/
def temporaryPath (path : Path) : Path := path.withExtension "toml.tmp"

/-- The directory a path is in, unless that is the working directory. -/
def directoryOf? (path : Path) : Option Path :=
  path.parent?.filter fun parent => parent.text != ""

/-- Save a configuration in a file. -/
def save (path : Path) (config : EngineConfig) : FileTask Unit := do
  let config ← config.checked
  let temporary := temporaryPath path
  match directoryOf? path with
  | none => pure ()
  | some directory =>
      FileTask.during (.createDirectory directory) (FileAction.createDirectory directory)
  FileTask.during (.writeTemporaryConfig temporary)
    (FileAction.perform (.write temporary (config.written ++ "\n").toUTF8))
  FileTask.during (.replaceConfig path) (FileAction.perform (.rename temporary path))

end EngineConfig

end Automation
