import Automation.Toml.Atom
import Automation.Toml.Quoted

/-
Reading TOML.

A text is read statement by statement, and the statements build its table.  Within brackets and
braces lines may end anywhere between two parts, and a comma may follow the last of them.
-/

namespace Automation

namespace Toml

/-- What follows space, line ends and comments.  The first argument tells that a comment has been
opened. -/
def skipSpace : Bool → List Char → Option (List Char)
  | _, [] => some []
  | _, '\n' :: rest => skipSpace false rest
  | _, '\r' :: '\n' :: rest => skipSpace false rest
  | true, c :: rest => if isControl c then none else skipSpace true rest
  | false, c :: rest =>
      if isBlank c then skipSpace false rest
      else if c = '#' then skipSpace true rest
      else some (c :: rest)

/-- What follows the line that a statement ends on: space, perhaps a comment, and the line end. -/
def lineEnd? (cs : List Char) : Option (List Char) :=
  let cs := cs.dropWhile isBlank
  let cs := match cs with
    | '#' :: rest => rest.dropWhile fun c => !isControl c
    | _ => cs
  match cs with
  | [] => some []
  | '\n' :: rest => some rest
  | '\r' :: '\n' :: rest => some rest
  | _ => none

/-- A character that names without quotes are made of. -/
def isBare (c : Char) : Bool := c.isAlphanum || c == '_' || c == '-'

/-- A name, bare or in short quotes. -/
def name? (cs : List Char) : Option (String × List Char) :=
  match cs with
  | '\"' :: rest => (basic? false false rest).map fun (s, rest) => (String.ofList s, rest)
  | '\'' :: rest => (literal? false rest).map fun (s, rest) => (String.ofList s, rest)
  | _ =>
      let bare := cs.takeWhile isBare
      if bare.isEmpty then none else some (String.ofList bare, cs.dropWhile isBare)

/-- A dotted name: the names on the way, the last one, and what follows with the space in front of
it left out. -/
def path? : Nat → List Char → Option (List String × String × List Char)
  | 0, _ => none
  | fuel + 1, cs => do
      let (name, rest) ← name? (cs.dropWhile isBlank)
      match rest.dropWhile isBlank with
      | '.' :: rest => (path? fuel rest).map fun (above, last, rest) => (name :: above, last, rest)
      | rest => some ([], name, rest)

/-- How deep lists and tables in braces may be nested. -/
def maxDepth : Nat := 80

mutual

/-- Read a value.  The first argument bounds the work, and the second the nesting. -/
def value? : Nat → Nat → List Char → Option (Value × List Char)
  | 0, _, _ => none
  | fuel + 1, depth, cs =>
      match cs with
      | '\"' :: _ => (quoted? cs).map fun (s, rest) => (.text (String.ofList s), rest)
      | '\'' :: _ => (quoted? cs).map fun (s, rest) => (.text (String.ofList s), rest)
      | '[' :: rest =>
          if depth = 0 then none
          else (items? fuel (depth - 1) rest).map fun (items, rest) => (.list items, rest)
      | '\x7b' :: rest =>
          if depth = 0 then none else members? fuel (depth - 1) (.table .braced []) rest
      | _ =>
          let (word, rest) := splitAtom cs
          (atom? word).map fun value => (value, rest)

/-- The items of a list up to its closing bracket. -/
def items? : Nat → Nat → List Char → Option (List Value × List Char)
  | 0, _, _ => none
  | fuel + 1, depth, cs => do
      match ← skipSpace false cs with
      | ']' :: rest => some ([], rest)
      | cs =>
          let (first, rest) ← value? fuel depth cs
          match ← skipSpace false rest with
          | ',' :: rest => (items? fuel depth rest).map fun (more, rest) => (first :: more, rest)
          | ']' :: rest => some ([first], rest)
          | _ => none

/-- Add the members of a table in braces to those it has so far. -/
def members? : Nat → Nat → Value → List Char → Option (Value × List Char)
  | 0, _, _, _ => none
  | fuel + 1, depth, table, cs => do
      match ← skipSpace false cs with
      | '\x7d' :: rest => some (table, rest)
      | cs =>
          let (above, name, rest) ← path? (cs.length + 1) cs
          match rest with
          | '=' :: rest =>
              let (value, rest) ← value? fuel depth (rest.dropWhile isBlank)
              let table ← Value.assignAt above name value table
              match ← skipSpace false rest with
              | ',' :: rest => members? fuel depth table rest
              | '\x7d' :: rest => some (table, rest)
              | _ => none
          | _ => none

end

/-- Read a statement up to the end of its line. -/
def statement? (fuel : Nat) (cs : List Char) : Option (Statement × List Char) :=
  match cs with
  | '[' :: '[' :: rest => do
      match ← path? fuel rest with
      | (above, name, ']' :: ']' :: rest) =>
          (lineEnd? rest).map fun rest => (.itemHeader above name, rest)
      | _ => none
  | '[' :: rest => do
      match ← path? fuel rest with
      | (above, name, ']' :: rest) => (lineEnd? rest).map fun rest => (.header above name, rest)
      | _ => none
  | _ => do
      match ← path? fuel cs with
      | (above, name, '=' :: rest) =>
          let (value, rest) ← value? fuel maxDepth (rest.dropWhile isBlank)
          (lineEnd? rest).map fun rest => (.item above name value, rest)
      | _ => none

/-- Read statements up to the end of a text. -/
def statements? : Nat → List Char → Option (List Statement)
  | 0, _ => none
  | fuel + 1, cs => do
      match ← skipSpace false cs with
      | [] => some []
      | cs =>
          let (first, rest) ← statement? (cs.length + 1) cs
          (statements? fuel rest).map (first :: ·)

/-- A text without the mark that some editors put in front of it. -/
def withoutMark : List Char → List Char
  | '\ufeff' :: rest => rest
  | cs => cs

/-- The table of a text. -/
def parse? (source : String) : Option Value :=
  let cs := withoutMark source.toList
  (statements? (cs.length + 1) cs).bind tableOf

end Toml

end Automation
