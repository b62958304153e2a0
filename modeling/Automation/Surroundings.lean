import Automation.Compiler.Scripted
import Automation.Loading.Isolated
import Automation.Loading.Scripted
import Automation.Shell.Spawn

/-
What is beyond the host: scripts that compilers and loaders play, and running units.
-/

namespace Automation

/-- A unit that runs. -/
structure RunningUnit where
  standing : Standing
  /-- What it has written and nobody has read yet. -/
  pending : ByteArray

/-- Everything beyond the host. -/
structure Surroundings where
  compileScripts : Table Nat CompileScript
  loadScripts : Table Nat LoadScript
  running : Table Nat RunningUnit
  /-- The number of the next unit that is started. -/
  nextRunning : Nat
  /-- What units have written about errors. -/
  errors : ByteArray

namespace Surroundings

def empty : Surroundings := ⟨[], [], [], 0, ByteArray.empty⟩

/-- The script of a compiler. -/
def compileScript (id : Nat) : Part Surroundings CompileScript where
  get s := (Table.get? id s.compileScripts).getD .empty
  set script s := { s with compileScripts := Table.put id script s.compileScripts }

/-- The script of a loader. -/
def loadScript (id : Nat) : Part Surroundings LoadScript where
  get s := (Table.get? id s.loadScripts).getD .standard
  set script s := { s with loadScripts := Table.put id script s.loadScripts }

/-- Pieces one after the other. -/
def joined (pieces : List ByteArray) : ByteArray := pieces.foldl (· ++ ·) ByteArray.empty

/-- Keep a unit that has come as far as it goes for now. -/
def keepUnit (id : Nat) (pending : ByteArray) (standing : Standing) (w : Written)
    (s : Surroundings) : Surroundings :=
  { s with
    running := Table.put id ⟨standing, pending ++ joined w.output.reverse⟩ s.running
    errors := s.errors ++ joined w.errors.reverse }

end Surroundings

namespace UnitProcess

/-- Let a unit run until it waits or ends. -/
def proceed (id : Nat) (pending : ByteArray) (behaviour : Behaviour Nat) :
    Act Surroundings Unit := fun w =>
  let (standing, written, t) := behaviour.advance .nothing w.host.files
  ((), { w.withFiles t with outside := w.outside.keepUnit id pending standing written })

/-- Start a unit in the working directory. -/
def start (launch : Launch) : Act Surroundings (Except OsError Nat) := fun w =>
  let t := w.host.files
  let id := w.outside.nextRunning
  let spawn : Spawn :=
    ⟨launch.program.text, [], launch.values, ⟨FileTree.locationText t.workingDirectory⟩⟩
  match spawn.start t (w.host.processes.self + 1 + id) with
  | .error e => (.error e, w)
  | .ok behaviour =>
      let ((), w) := (proceed id ByteArray.empty behaviour).run
        { w with outside := { w.outside with nextRunning := id + 1 } }
      (.ok id, w)

/-- Write a line to the input of a unit. -/
def send (id : Nat) (line : String) : Act Surroundings (Except OsError Unit) := fun w =>
  match Table.get? id w.outside.running with
  | some ⟨.waiting next, pending⟩ =>
      let ((), w) := (proceed id pending (next (some line.toUTF8))).run w
      (.ok (), w)
  | _ => (.error .brokenPipe, w)

/-- The bytes up to the first line feed, with it. -/
def firstLine (bytes : ByteArray) : ByteArray :=
  match bytes.data.toList.idxOf? '\n'.toUInt8 with
  | some i => bytes.extract 0 (i + 1)
  | none => bytes

/-- Read a line of the output of a unit. -/
def receiveLine (id : Nat) : Act Surroundings (Except OsError String) := fun w =>
  match Table.get? id w.outside.running with
  | none => (.ok "", w)
  | some unit =>
      let line := firstLine unit.pending
      let rest := unit.pending.extract line.size unit.pending.size
      let s := w.outside
      let w := { w with outside := { s with running := Table.put id ⟨unit.standing, rest⟩ s.running } }
      match Text.strict? line with
      | some text => (.ok text, w)
      | none => (.error .notText, w)

/-- The number of lines that a unit has written and nobody has read yet. -/
def waiting (id : Nat) (w : World Surroundings) : Nat :=
  match Table.get? id w.outside.running with
  | none => 0
  | some unit => unit.pending.data.toList.count '\n'.toUInt8 + 1

/-- End a unit. -/
def stop (id : Nat) : Act Surroundings Unit := fun w =>
  ((), { w with outside := { w.outside with running := Table.erase id w.outside.running } })

/-- The launcher of units. -/
def launcher : Launcher Surroundings := ⟨start, send, receiveLine, waiting, stop⟩

end UnitProcess

/-- An entry of either kind. -/
abbrev Entry := ScriptedEntry ⊕ IsolatedEntry

namespace Entry

/-- The loader that plays the script of its number. -/
def scriptedLoader (id : Nat) : UnitLoader Surroundings Entry :=
  (UnitLoader.scripted Surroundings.loadScript id).first
    (IsolatedEntry.capabilities UnitProcess.launcher)

/-- The loader that starts units from snapshots below a directory. -/
def isolatedLoader (shadowDir : Path) (extension : String) : UnitLoader Surroundings Entry :=
  UnitLoader.second (ScriptedEntry.capabilities Surroundings.loadScript)
    (UnitLoader.isolated UnitProcess.launcher shadowDir extension)

end Entry

end Automation
