import Automation.CommandLine.Execution

/-
The command line on the files of a machine.

The files that a command may look at are read first, then the command does its work on them, and
in the end what has become of them is written back.
-/

namespace Automation.Machine

/-- The names in the text of an absolute path. -/
def namesOf (path : String) : Location :=
  ((Text.splitAt '/' path.toList).map String.ofList).filter (· ≠ "")

/-- Put a node at a location, below directories. -/
def place (l : Location) (n : Node) (t : FileTree) : FileTree :=
  let above := (List.range l.length).filterMap fun i => if i = 0 then none else some (l.take i)
  (above.foldl (fun t l => t.put l .directory) t).put l n

/-- Read what is at a path, if anything is, and everything below it. -/
partial def readTree (path : String) (t : FileTree) : IO FileTree := do
  try
    let real ← IO.FS.realPath path
    if ← real.isDir then
      let mut t := place (namesOf path) .directory t
      for entry in ← real.readDir do
        t ← readTree (path ++ "/" ++ entry.fileName) t
      return t
    else if ← real.pathExists then
      return place (namesOf path) (.file (← IO.FS.readBinFile path) false) t
    else return t
  catch _ => return t

/-- The numbers that name files in a directory. -/
def numbersIn (path : String) : IO (List Nat) := do
  try
    return (← (← IO.FS.realPath path).readDir).toList.filterMap (·.fileName.toNat?)
  catch _ => return []

/-- The process that is running. -/
def ownNumber : IO Nat := do
  try
    return (((← IO.FS.realPath "/proc/self").fileName).bind String.toNat?).getD 0
  catch _ => return 0

/-- The paths that a command with this configuration may look at. -/
def pathsOf (config : EngineConfig) (invocation : CommandLine.Invocation) : List Path :=
  let config := CommandLine.rooted config invocation.configPath
  let dirs := [config.programsDir, config.shadowDir] ++ config.templatePath.toList
  match invocation.command with
  | .config _ => []
  | .compile arguments => dirs ++ arguments.mainBody :: arguments.trigger.toList
  | .run arguments _ _ => dirs ++ arguments.mainBody :: arguments.trigger.toList

/-- Write what is new or other than before, and remove what is gone. -/
def writeBack (before after : FileTree) : IO Unit := do
  for (l, n) in after.entries do
    if before.node? l ≠ some n then
      let path := FileTree.locationText l
      match n with
      | .directory => IO.FS.createDirAll path
      | .file content _ =>
          IO.FS.createDirAll (FileTree.locationText l.dropLast)
          IO.FS.writeBinFile path content
  for (l, n) in before.entries.reverse do
    if (after.node? l).isNone then
      let path := FileTree.locationText l
      match n with
      | .directory => IO.FS.removeDirAll path
      | .file .. => IO.FS.removeFile path

/-- Do what is to be done on the files of the machine. -/
def perform (invocation : CommandLine.Invocation) : IO CommandLine.Report := do
  let here := (← IO.currentDir).toString
  let read (t : FileTree) (p : Path) : IO FileTree :=
    readTree ((Path.mk here).join p).text t
  let start := place (namesOf here) .directory ⟨namesOf here, []⟩
  let withConfig ← read start invocation.configPath
  let config := match ((EngineConfig.load invocation.configPath).run.run withConfig).1 with
    | .ok config => config
    | .error _ => .standard
  let files ← (pathsOf config invocation).foldlM read withConfig
  let processes := ⟨← ownNumber, ← numbersIn "/proc"⟩
  let host : Host := ⟨files, processes, ⟨0, 0⟩, ← IO.rand 0 0xfffffffffffffff⟩
  let (report, world) :=
    (CommandLine.execute CommandLine.standardEquipment invocation).run ⟨host, .empty⟩
  writeBack files world.host.files
  (← IO.getStderr).write world.outside.errors
  return report

end Automation.Machine

open Automation in
def main (arguments : List String) : IO UInt32 := do
  let report ← match CommandLine.read arguments with
    | .ok invocation => Machine.perform invocation
    | .error stop => pure (.ofStop stop)
  IO.print report.output
  IO.eprint report.complaint
  return report.code.number.toUInt32
