import Automation.Capture
import Automation.Shell.Spawn
import Automation.World

/-
Running a tool to its end, with a bound on its time and on what is kept of its outputs.
-/

namespace Automation

/-- The order to run a tool. -/
structure ToolOrder where
  program : String
  arguments : List String
  timeoutMillis : Nat
  /-- How many bytes are kept of each output. -/
  outputLimit : Nat
deriving Repr, DecidableEq

/-- What a tool has left. -/
structure ToolOutput where
  ending : Ending
  stdout : ByteArray
  stderr : ByteArray
  /-- The bytes of both outputs that were dropped. -/
  truncated : Nat

namespace ToolOutput

/-- The exit code, unless the tool was ended by a signal or stopped. -/
def code? (o : ToolOutput) : Option Nat :=
  match o.ending with
  | .exited code => some code
  | _ => none

def success (o : ToolOutput) : Bool := o.code? == some 0

def timedOut (o : ToolOutput) : Bool := o.ending == .timedOut

/-- What is kept of a finished process. -/
def ofFinished (limit : Nat) (f : Finished) : ToolOutput :=
  let stdout := capture limit f.output
  let stderr := capture limit f.errors
  ⟨f.ending, stdout.kept, stderr.kept, stdout.dropped + stderr.dropped⟩

end ToolOutput

/-- What runs tools in a world. -/
abbrev ToolRunner (τ : Type) := ToolOrder → Act τ (Except Failure ToolOutput)

/-- Run a tool in the working directory.  One that is given no time at all is stopped before it
does anything. -/
def runTool {τ : Type} : ToolRunner τ := fun order w =>
  let t := w.host.files
  let spawn : Spawn :=
    ⟨order.program, order.arguments, [], ⟨FileTree.locationText t.workingDirectory⟩⟩
  match spawn.start t (w.host.processes.self + 1) with
  | .error e => (.error ⟨[.spawn order.program], .os e⟩, w)
  | .ok behaviour =>
      let started := Behaviour.pause 0 fun _ => behaviour
      let finished := started.run order.timeoutMillis 0 .nothing t
      (.ok (.ofFinished order.outputLimit finished), w.withFiles finished.files)

/-- Act with another working directory. -/
def Act.inDirectory {τ α : Type} (directory : Location) (act : Act τ α) : Act τ α := fun w =>
  let before := w.host.files.workingDirectory
  let (value, w) := act.run (w.withFiles { w.host.files with workingDirectory := directory })
  (value, w.withFiles { w.host.files with workingDirectory := before })

end Automation
