import Automation.Shell.Pattern
import Automation.Files.Tree
import Automation.Text.Octets

/-
Pathname expansion.

A field with an unquoted star, question mark or bracket stands for the paths that match it part by
part, in the order of their octets.  A name that starts with a dot is matched by a part that starts
with a dot.
-/

namespace Automation.Shell.Pathnames

/-- A character that makes a field a pattern, unless it is quoted. -/
def isActive (c : Char × Bool) : Bool :=
  !c.2 && (c.1 == '*' || c.1 == '?' || c.1 == '[')

/-- The parts of a field between its slashes. -/
def parts (field : List (Char × Bool)) : List (List (Char × Bool)) :=
  field.foldr
    (fun c found =>
      match found with
      | first :: rest => if c.1 = '/' then [] :: first :: rest else (c :: first) :: rest
      | [] => [[c]])
    [[]]

def textOf (part : List (Char × Bool)) : Octets := String.ofList (part.map Prod.fst)

/-- Whether a part of a pattern may stand for a name. -/
def allows (part : List (Char × Bool)) (name : Octets) : Bool :=
  (name.toList.head? != some '.' || (part.head?.map Prod.fst) == some '.') &&
    Pattern.isMatch (Pattern.parse part) name.toList

/-- The paths that continue a start by the parts of a pattern. -/
def continued (t : FileTree) (directory : Path) :
    Octets → List (List (Char × Bool)) → List Octets
  | start, [] => [start]
  | start, part :: rest =>
      let slash := if rest.isEmpty then "" else "/"
      let place (s : Octets) := directory.join ⟨Octets.decode s⟩
      if !part.any isActive then
        let here := start ++ textOf part
        if t.exists? (place (if here.isEmpty then "/" else here)) then
          continued t directory (here ++ slash) rest
        else []
      else
        match t.list (place (if start.isEmpty then "." else start)) with
        | .error _ => []
        | .ok entries =>
            let names := entries.filterMap fun (name, node) =>
              let name := Octets.encode name
              if allows part name && (rest.isEmpty || node == .directory) then some name else none
            names.flatMap fun name => continued t directory (start ++ name ++ slash) rest

/-- The fields that a field stands for: itself when it is no pattern or nothing matches it. -/
def expand (t : FileTree) (directory : Path) (field : List (Char × Bool)) : List Octets :=
  if field.any isActive then
    match continued t directory "" (parts field) with
    | [] => [textOf field]
    | found => found.mergeSort fun a b => a ≤ b
  else [textOf field]

end Automation.Shell.Pathnames
