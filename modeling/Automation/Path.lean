import Automation.Text.Lines

/-
Paths as text.

A path keeps the text it was written with, because that text is what messages show.  Its parts are
read off the text: repeated slashes, trailing slashes and inner dots separate nothing.
-/

namespace Automation

/-- A path of the file system, kept as it was written. -/
structure Path where
  text : String
deriving Repr, DecidableEq, Inhabited

namespace Path

/-- One part of a path. -/
inductive Component where
  /-- The leading slash. -/
  | root
  /-- A leading dot. -/
  | here
  /-- The directory above. -/
  | up
  | name (text : String)
deriving Repr, DecidableEq

/-- A path that starts at the root. -/
def isAbsolute (p : Path) : Bool :=
  p.text.toList.head? == some '/'

def isRelative (p : Path) : Bool :=
  !p.isAbsolute

/-- The part between two slashes, unless it separates nothing. -/
def Component.ofName? (name : String) : Option Component :=
  if name = "" ∨ name = "." then none
  else if name = ".." then some .up
  else some (.name name)

/-- The parts of a path. -/
def components (p : Path) : List Component :=
  let names := (Text.splitAt '/' p.text.toList).map String.ofList
  let rest := names.filterMap Component.ofName?
  if p.isAbsolute then .root :: rest
  else if names.head? = some "." then .here :: rest
  else rest

/-- Two paths with the same parts. -/
def same (p q : Path) : Bool :=
  p.components == q.components

/-- `q` seen from `p`: an absolute path stands alone, any other continues `p`. -/
def join (p q : Path) : Path :=
  if q.isAbsolute || p.text.isEmpty then q
  else if p.text.toList.getLast? = some '/' then ⟨p.text ++ q.text⟩
  else ⟨p.text ++ "/" ++ q.text⟩

/-- The path with a name below it. -/
def child (p : Path) (name : String) : Path :=
  p.join ⟨name⟩

/-- The path with more text at its end. -/
def append (p : Path) (more : String) : Path :=
  ⟨p.text ++ more⟩

/-- Drop what separates nothing from the end of a path; the characters are in reverse order. -/
def trimTail : List Char → List Char
  | ['/'] => ['/']
  | '/' :: rest => trimTail rest
  | '.' :: '/' :: rest => trimTail ('/' :: rest)
  | cs => cs
termination_by cs => cs.length

/-- The characters of a path in reverse order, from the end of its last part. -/
def reversedTail (p : Path) : List Char :=
  trimTail p.text.toList.reverse

/-- The name at the end of a path; a path that ends in the root or a dot part has none. -/
def fileName? (p : Path) : Option String :=
  let name := String.ofList (p.reversedTail.takeWhile (· ≠ '/')).reverse
  if name = "" ∨ name = "." ∨ name = ".." then none else some name

/-- The path without its last part. -/
def parent? (p : Path) : Option Path :=
  match p.reversedTail with
  | [] => none
  | ['/'] => none
  | cs => some ⟨String.ofList (trimTail (cs.dropWhile (· ≠ '/'))).reverse⟩

/-- The directory a path lies in, when the path names one. -/
def directory? (p : Path) : Option Path :=
  p.parent?.filter fun parent => parent.text ≠ ""

/-- A path and at most so many of the directories above it. -/
def ancestorsUpTo : Nat → Path → List Path
  | 0, p => [p]
  | height + 1, p =>
      match p.parent? with
      | none => [p]
      | some parent => p :: ancestorsUpTo height parent

/-- The path, the directory it is in, and so on upwards. -/
def ancestors (p : Path) : List Path :=
  ancestorsUpTo p.text.length p

/-- A name split at its last dot.  A dot in front starts no extension. -/
def splitName (name : String) : String × Option String :=
  let reversed := name.toList.reverse
  let after := reversed.takeWhile (· ≠ '.')
  match reversed.drop after.length with
  | [] => (name, none)
  | ['.'] => (name, none)
  | _ :: before => (String.ofList before.reverse, some (String.ofList after.reverse))

/-- The name at the end of a path up to its extension. -/
def stem? (p : Path) : Option String :=
  p.fileName?.map fun name => (splitName name).1

/-- The extension of the name at the end of a path. -/
def extension? (p : Path) : Option String :=
  p.fileName?.bind fun name => (splitName name).2

/-- Replace all that follows the stem of the last name.  A path without a name stays as it is. -/
def replaceAfterStem (p : Path) (extension : String) : Path :=
  match p.fileName? with
  | none => p
  | some name =>
      let stem := (splitName name).1
      let kept := (p.reversedTail.drop (name.length - stem.length)).reverse
      ⟨String.ofList kept ++ (if extension = "" then "" else "." ++ extension)⟩

/-- The path with another extension.  As many characters as the old extension has are cut off the
end of the text first, and the rest is read as a path again: a name that is nothing but dots in
front of its extension is no name any more. -/
def withExtension (p : Path) (extension : String) : Path :=
  let old := (p.extension?.map String.length).getD 0
  let cut : Path := ⟨String.ofList (p.text.toList.take (p.text.length - old))⟩
  cut.replaceAfterStem extension

end Path

end Automation
