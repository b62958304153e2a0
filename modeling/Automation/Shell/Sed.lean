import Automation.Shell.Expression
import Automation.Shell.Programs

/-
Editing line by line with `sed`.

A script is a list of commands, each of them for the lines that an address in front of it names.
-/

namespace Automation.Shell

namespace Sed

open Sh Programs

/-- The lines that a command is for. -/
inductive Address where
  | every
  | number (n : Nat)
  | last
  | matching (items : List ExpressionItem)
  | range (first last : Address)
deriving Repr

/-- What a command does with a line. -/
inductive Edit where
  | substitute (items : List ExpressionItem) (replacement : List Char) (every printed : Bool)
  | print
  | delete
  | quit
deriving Repr

/-- A command for the lines of an address, or for all others. -/
structure Command where
  address : Address
  others : Bool
  edit : Edit
deriving Repr

/-- The text up to a delimiter that no backslash quotes, and what follows it. -/
def upTo (delimiter : Char) : List Char → Option (List Char × List Char)
  | [] => none
  | '\\' :: c :: rest =>
      (upTo delimiter rest).map fun (found, rest) =>
        (if c = delimiter then c :: found else '\\' :: c :: found, rest)
  | c :: rest =>
      if c = delimiter then some ([], rest)
      else (upTo delimiter rest).map fun (found, rest) => (c :: found, rest)

/-- What a replacement makes of a match. -/
def replacementOf (found : List Char) : List Char → List Char
  | [] => []
  | '\\' :: 'n' :: rest => '\n' :: replacementOf found rest
  | '\\' :: c :: rest => c :: replacementOf found rest
  | '&' :: rest => found ++ replacementOf found rest
  | c :: rest => c :: replacementOf found rest

/-- The address at the start of a command, and what follows it. -/
def simpleAddress? : List Char → Option (Address × List Char)
  | '$' :: rest => some (.last, rest)
  | '/' :: rest => (upTo '/' rest).map fun (found, rest) =>
      (.matching (Expression.parse found), rest)
  | cs =>
      let ds := cs.takeWhile Char.isDigit
      if ds.isEmpty then none
      else
        some (.number (ds.foldl (fun n d => n * 10 + (d.toNat - '0'.toNat)) 0), cs.drop ds.length)

def address (cs : List Char) : Address × List Char :=
  match simpleAddress? cs with
  | none => (.every, cs)
  | some (first, ',' :: rest) =>
      match simpleAddress? rest with
      | some (final, rest) => (.range first final, rest)
      | none => (first, ',' :: rest)
  | some (first, rest) => (first, rest)

/-- What a command does, and what follows it. -/
def edit? : List Char → Option (Edit × List Char)
  | 'p' :: rest => some (.print, rest)
  | 'd' :: rest => some (.delete, rest)
  | 'q' :: rest => some (.quit, rest)
  | 's' :: delimiter :: rest => do
      let (pattern, rest) ← upTo delimiter rest
      let (replacement, rest) ← upTo delimiter rest
      let flags := rest.takeWhile Char.isAlpha
      pure (.substitute (Expression.parse pattern) replacement (flags.contains 'g')
        (flags.contains 'p'), rest.drop flags.length)
  | _ => none

/-- A character between two commands. -/
def isBetween (c : Char) : Bool := c == ';' || c == '\n' || c == ' '

/-- The commands of a script. -/
def commands? : Nat → List Char → Option (List Command)
  | 0, _ => none
  | fuel + 1, cs =>
      match cs.dropWhile isBetween with
      | [] => some []
      | cs => do
          let (address, rest) := address cs
          let (others, rest) := match rest.dropWhile (· = ' ') with
            | '!' :: rest => (true, rest)
            | rest => (false, rest)
          let (edit, rest) ← edit? (rest.dropWhile (· = ' '))
          let more ← commands? fuel rest
          pure (⟨address, others, edit⟩ :: more)

/-- Whether a line is one that an address names. -/
def names (line : List Char) (number : Nat) (isLast : Bool) : Address → Bool
  | .every => true
  | .number n => number == n
  | .last => isLast
  | .matching items => Expression.occurs items true line
  | .range (.number first) (.number final) => first ≤ number && number ≤ max first final
  | .range (.number first) .last => first ≤ number
  | .range first final => names line number isLast first || names line number isLast final

/-- What a line has come to. -/
structure Progress where
  line : List Char
  printed : List (List Char)
  deleted : Bool
  finished : Bool

/-- Carry out a command on a line. -/
def apply (number : Nat) (isLast : Bool) (p : Progress) (c : Command) : Progress :=
  if p.deleted || p.finished || names p.line number isLast c.address == c.others then p
  else
    match c.edit with
    | .print => { p with printed := p.printed ++ [p.line] }
    | .delete => { p with deleted := true }
    | .quit => { p with finished := true }
    | .substitute items replacement every printed =>
        if !Expression.occurs items true p.line then p
        else
          let line := Expression.replace items every (fun found => replacementOf found replacement)
            (p.line.length + 1) true p.line
          { p with
            line := line
            printed := if printed then p.printed ++ [line] else p.printed }

/-- The lines that some lines come to. -/
def edited (commands : List Command) (quiet : Bool) : Nat → List (List Char) → List (List Char)
  | _, [] => []
  | number, line :: rest =>
      let p := commands.foldl (apply number rest.isEmpty) ⟨line, [], false, false⟩
      let shown := p.printed ++ if quiet || p.deleted then [] else [p.line]
      if p.finished then shown else shown ++ edited commands quiet (number + 1) rest

/-- The scripts that options give, and the other words. -/
def splitScripts : List Octets → List Octets × List Octets
  | "-e" :: script :: rest =>
      let (scripts, others) := splitScripts rest
      (script :: scripts, others)
  | word :: rest =>
      let (scripts, others) := splitScripts rest
      (scripts, word :: others)
  | [] => ([], [])

end Sed

open Sh Programs in
/-- The program `sed`. -/
def Programs.sed : Program := fun arguments => do
  let (scripts, others) := Sed.splitScripts arguments
  let (options, operands) := splitOptions others
  let (source, files) :=
    if scripts.isEmpty then (operands.headD "", operands.tail)
    else ("\n".intercalate scripts, operands)
  if scripts.isEmpty && operands.isEmpty then
    complain "Usage: sed [OPTION]... \x7bscript-only-if-no-other-script\x7d [input-file]..."
    pure 1
  else
    match Sed.commands? (source.length + 1) source.toList with
    | none => do
        complain "sed: -e expression #1, char 0: unsupported command"
        pure 1
    | some commands =>
        forEach (if files.isEmpty then ["-"] else files) fun name => do
          match ← inputOf name with
          | .ok content => do
              let (ls, closed) := linesOf content
              emit 1 (ofLines (Sed.edited commands (hasOption options 'n') 1 ls) closed)
              pure 0
          | .error e => do
              complain ("sed: can't read " ++ name ++ ": " ++ e.text)
              pure 2

end Automation.Shell
