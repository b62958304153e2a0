import Automation.Files.Error
import Automation.Path
import Automation.Table
import Automation.Text.Utf8

/-
The files of a host.

A tree is a flat table from locations to nodes, so that an operation on one location says plainly
what it leaves alone.  A path is resolved part by part from the working directory: every part but
the last has to lead through a directory.
-/

namespace Automation

/-- The names that lead to a file from the root. -/
abbrev Location := List String

/-- Contents are the same when their bytes are. -/
instance instDecidableEqContent : DecidableEq ByteArray := ByteArray.instDecidableEq

/-- What is at a location. -/
inductive Node where
  | file (content : ByteArray) (executable : Bool)
  | directory
deriving DecidableEq

/-- The files of a host, and the directory that relative paths start from. -/
structure FileTree where
  workingDirectory : Location
  entries : Table Location Node

namespace FileTree

/-- A tree with nothing below the root. -/
def empty : FileTree := ⟨[], []⟩

/-- What is at a location.  The root is always there. -/
def node? (t : FileTree) (l : Location) : Option Node :=
  if l = [] then some .directory else Table.get? l t.entries

/-- The tree with a node at a location. -/
def put (t : FileTree) (l : Location) (n : Node) : FileTree :=
  { t with entries := Table.put l n t.entries }

/-- The tree with nothing at a location. -/
def erase (t : FileTree) (l : Location) : FileTree :=
  { t with entries := Table.erase l t.entries }

/-- The tree with nothing at a location and below it. -/
def eraseBelow (t : FileTree) (l : Location) : FileTree :=
  { t with entries := Table.keep (fun other => !l.isPrefixOf other) t.entries }

@[simp] theorem node?_root (t : FileTree) : t.node? [] = some .directory := by
  simp [node?]

theorem node?_put (t : FileTree) (l other : Location) (n : Node) (hother : other ≠ []) :
    (t.put l n).node? other = if other = l then some n else t.node? other := by
  simp [put, node?, hother, Table.get?_put]

theorem node?_erase (t : FileTree) (l other : Location) (hother : other ≠ []) :
    (t.erase l).node? other = if other = l then none else t.node? other := by
  simp [erase, node?, hother, Table.get?_erase]

theorem node?_eraseBelow (t : FileTree) (l other : Location) (hother : other ≠ []) :
    (t.eraseBelow l).node? other = if l.isPrefixOf other then none else t.node? other := by
  by_cases h : l.isPrefixOf other <;> simp [eraseBelow, node?, hother, Table.get?_keep, h]

/-- The names in a directory, with what they name. -/
def children (t : FileTree) (l : Location) : List (String × Node) :=
  t.entries.filterMap fun (other, n) =>
    if other ≠ [] ∧ other.dropLast = l then other.getLast?.map fun name => (name, n) else none

/-- The longest name and the longest path, in bytes. -/
def nameLimit : Nat := 255

def pathLimit : Nat := 4095

/-- The parts of a path that are walked.  A slash at the end asks for a directory, as a dot does. -/
def walkNames (p : Path) : List String :=
  let cs := p.text.toList
  let names := ((Text.splitAt '/' cs).map String.ofList).filter (· ≠ "")
  if cs.getLast? = some '/' then names ++ ["."] else names

/-- Walk from a location along some names.  The last name need not exist. -/
def walk (t : FileTree) : Location → List String → Except OsError Location
  | here, [] => .ok here
  | here, name :: rest =>
      match t.node? here with
      | none => .error .noEntry
      | some (.file ..) => .error .notDirectory
      | some .directory =>
          if nameLimit < name.utf8ByteSize then .error .nameTooLong
          else if name = "." then t.walk here rest
          else if name = ".." then t.walk here.dropLast rest
          else t.walk (here ++ [name]) rest

/-- The location a path leads to. -/
def locate (t : FileTree) (p : Path) : Except OsError Location :=
  if p.text = "" then .error .noEntry
  else if p.text.toList.contains '\x00' then .error .nulInName
  else if pathLimit < p.text.utf8ByteSize then .error .nameTooLong
  else t.walk (if p.isAbsolute then [] else t.workingDirectory) (walkNames p)

/-- What a path leads to. -/
def stat (t : FileTree) (p : Path) : Except OsError Node :=
  match t.locate p with
  | .error e => .error e
  | .ok l =>
      match t.node? l with
      | some n => .ok n
      | none => .error .noEntry

def isFile (t : FileTree) (p : Path) : Bool :=
  match t.stat p with
  | .ok (.file ..) => true
  | _ => false

def isDirectory (t : FileTree) (p : Path) : Bool :=
  match t.stat p with
  | .ok .directory => true
  | _ => false

def exists? (t : FileTree) (p : Path) : Bool :=
  match t.stat p with
  | .ok _ => true
  | .error _ => false

/-- The content of a file. -/
def readBytes (t : FileTree) (p : Path) : Except OsError ByteArray :=
  match t.stat p with
  | .error e => .error e
  | .ok .directory => .error .isDirectory
  | .ok (.file content _) => .ok content

/-- The content of a file that holds text. -/
def readText (t : FileTree) (p : Path) : Except OsError String :=
  match t.readBytes p with
  | .error e => .error e
  | .ok content =>
      match Text.strict? content with
      | some text => .ok text
      | none => .error .notText

/-- The names in the directory a path leads to. -/
def list (t : FileTree) (p : Path) : Except OsError (List (String × Node)) :=
  match t.locate p with
  | .error e => .error e
  | .ok l =>
      match t.node? l with
      | none => .error .noEntry
      | some (.file ..) => .error .notDirectory
      | some .directory => .ok (t.children l)

/-- The text of a location. -/
def locationText (l : Location) : String := "/" ++ "/".intercalate l

/-- A path that says the same from every working directory. -/
def absolute (t : FileTree) (p : Path) : Path :=
  Path.join ⟨locationText t.workingDirectory⟩ p

end FileTree

end Automation
