import Automation.Shell.Interpreter

/-
Starting programs.

A program called by a name alone is one that everybody has.  One called by a path is a file, which
has to be executable and to name its interpreter in its first line.
-/

namespace Automation

/-- What is to be started: a program, its arguments and variables, and where it works. -/
structure Spawn where
  program : String
  arguments : List String
  values : List (String × String)
  directory : Path
deriving Repr, DecidableEq

namespace Spawn

open Shell

/-- The longest chain of interpreters. -/
def interpreterLimit : Nat := 5

/-- The program that everybody has which runs a program, and its arguments. -/
def standard? (t : FileTree) (directory : Path) :
    Nat → String → List Octets → Except OsError (Octets × List Octets)
  | 0, _, _ => .error .badExecutable
  | limit + 1, program, arguments =>
      if program.isEmpty then .error .noEntry
      else if !program.toList.contains '/' then
        if isProgram program then .ok (program, arguments) else .error .noEntry
      else
        match standardName? program with
        | some name => if isProgram name then .ok (name, arguments) else .error .noEntry
        | none =>
            match t.stat (directory.join ⟨program⟩) with
            | .error e => .error e
            | .ok .directory => .error .accessDenied
            | .ok (.file _ false) => .error .accessDenied
            | .ok (.file content true) =>
                match interpreter (Octets.ofBytes content) with
                | .error e => .error e
                | .ok (interpreter, options) =>
                    standard? t directory limit (Octets.decode interpreter)
                      (options ++ Octets.encode program :: arguments)

/-- The state in which a program starts. -/
def machine (s : Spawn) (processId : Nat) (name : Octets) : Machine :=
  let values := s.values.map fun (name, value) => (Octets.encode name, Octets.encode value)
  { name := name
    arguments := []
    values := values
    exported := values.map Prod.fst
    fixed := []
    functions := []
    traps := []
    status := 0
    substituted := 0
    line := 1
    processId := processId
    directory := s.directory
    descriptors := [(0, .input), (1, .outlet .output), (2, .outlet .errors)]
    buffers := []
    nextBuffer := 0
    options := .usual
    guarded := false
    calls := 0
    loops := 0
    hidden := []
    jobs := []
    lastJob := none }

/-- Run a program that everybody has as the whole of a process. -/
def whole (name : Octets) (arguments : List Octets) : Sh Unit := do
  if isShell name then
    match ← shellScript name arguments with
    | .ok (start, source) => do
        modify start
        script depthLimit source
    | .error message => do
        Sh.complain message
        setStatus 2
  else standardProgram depthLimit name arguments

/-- A text with a NUL in it. -/
def hasNul (s : String) : Bool := s.toList.contains '\x00'

/-- Start a program. -/
def start (s : Spawn) (t : FileTree) (processId : Nat) : Except OsError (Behaviour Nat) :=
  if hasNul s.program || s.arguments.any hasNul then .error .nulInArgument
  else
    match standard? t s.directory interpreterLimit s.program (s.arguments.map Octets.encode) with
    | .error e => .error e
    | .ok (name, arguments) =>
        .ok (Behaviour.bind ((whole name arguments).run.run (s.machine processId name)) fun
          (result, m) =>
            match result with
            | .ok _ => .done m.status
            | .error leave => .done (Sh.Leave.status m.status leave))

end Spawn

end Automation
