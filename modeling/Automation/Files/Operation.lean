import Automation.Files.Tree

/-
The operations that change files.

Each of them either does all of its work or is refused and changes nothing.
-/

namespace Automation

/-- One change to the files of a host. -/
inductive FileOp where
  /-- Make a directory where nothing is. -/
  | makeDirectory (p : Path)
  /-- Make a file, or give an existing one this content. -/
  | write (p : Path) (content : ByteArray)
  /-- Add to the end of a file, which is made when it is not there. -/
  | append (p : Path) (content : ByteArray)
  /-- Remove the name of a file. -/
  | unlink (p : Path)
  /-- Remove a directory and everything below it. -/
  | removeTree (p : Path)
  /-- Move a name, over what has the new name if it is of the same kind. -/
  | rename (old new : Path)
  /-- Give a file a second name, where nothing is. -/
  | link (original new : Path)
  /-- Say whether a file can be run. -/
  | setExecutable (p : Path) (executable : Bool)

namespace FileTree

/-- A path without slashes at its end. -/
def withoutSlashes (p : Path) : Path :=
  match p.text.toList.reverse.dropWhile (· = '/') with
  | [] => p
  | cs => ⟨String.ofList cs.reverse⟩

def makeDirectory (t : FileTree) (p : Path) : Except OsError FileTree :=
  match t.locate (withoutSlashes p) with
  | .error e => .error e
  | .ok l =>
      match t.node? l with
      | some _ => .error .exists
      | none => .ok (t.put l .directory)

/-- Give a file a content that depends on the one it has. -/
def update (t : FileTree) (p : Path) (content : ByteArray → ByteArray) :
    Except OsError FileTree :=
  match t.locate p with
  | .error e => .error e
  | .ok l =>
      match t.node? l with
      | some .directory => .error .isDirectory
      | some (.file old executable) => .ok (t.put l (.file (content old) executable))
      | none => .ok (t.put l (.file (content ByteArray.empty) false))

def unlink (t : FileTree) (p : Path) : Except OsError FileTree :=
  match t.locate p with
  | .error e => .error e
  | .ok l =>
      match t.node? l with
      | none => .error .noEntry
      | some .directory => .error .isDirectory
      | some (.file ..) => .ok (t.erase l)

def removeTree (t : FileTree) (p : Path) : Except OsError FileTree :=
  match t.locate p with
  | .error e => .error e
  | .ok l =>
      match t.node? l with
      | none => .error .noEntry
      | some (.file ..) => .error .notDirectory
      | some .directory => .ok (t.eraseBelow l)

/-- Move everything at a location and below it to another one. -/
def moveBelow (t : FileTree) (old new : Location) : FileTree :=
  let moved := t.entries.filterMap fun (l, n) =>
    if old.isPrefixOf l then some (new ++ l.drop old.length, n) else none
  let kept := (t.eraseBelow old).eraseBelow new
  { kept with entries := kept.entries ++ moved }

def rename (t : FileTree) (old new : Path) : Except OsError FileTree :=
  match t.locate old with
  | .error e => .error e
  | .ok l =>
      match t.locate new with
      | .error e => .error e
      | .ok m =>
          match t.node? l, t.node? m with
          | none, _ => .error .noEntry
          | some (.file ..), some .directory => .error .isDirectory
          | some (.file content executable), _ =>
              if l = m then .ok t else .ok ((t.erase l).put m (.file content executable))
          | some .directory, some (.file ..) => .error .notDirectory
          | some .directory, found =>
              if l = m then .ok t
              else if l.isPrefixOf m then .error .invalidArgument
              else if found.isSome ∧ t.children m ≠ [] then .error .notEmpty
              else .ok (t.moveBelow l m)

def link (t : FileTree) (original new : Path) : Except OsError FileTree :=
  match t.locate original with
  | .error e => .error e
  | .ok l =>
      match t.node? l with
      | none => .error .noEntry
      | some n =>
          match t.locate new with
          | .error e => .error e
          | .ok m =>
              match t.node? m, n with
              | some _, _ => .error .exists
              | none, .directory => .error .notPermitted
              | none, .file content executable => .ok (t.put m (.file content executable))

def setExecutable (t : FileTree) (p : Path) (executable : Bool) : Except OsError FileTree :=
  match t.locate p with
  | .error e => .error e
  | .ok l =>
      match t.node? l with
      | none => .error .noEntry
      | some .directory => .ok t
      | some (.file content _) => .ok (t.put l (.file content executable))

end FileTree

/-- What an operation makes of some files. -/
def FileOp.apply (t : FileTree) : FileOp → Except OsError FileTree
  | .makeDirectory p => t.makeDirectory p
  | .write p content => t.update p fun _ => content
  | .append p content => t.update p fun old => old ++ content
  | .unlink p => t.unlink p
  | .removeTree p => t.removeTree p
  | .rename old new => t.rename old new
  | .link original new => t.link original new
  | .setExecutable p executable => t.setExecutable p executable

end Automation
