import Automation.Behaviour
import Automation.Shell.Script
import Automation.Table

/-
The state of a shell, and what its commands are made of.

A descriptor leads to an output or to the input of the process, to a file, or to a buffer.
Buffers hold what flows from one command of a pipeline to the next, and the output of commands
whose output is substituted.
-/

namespace Automation.Shell

/-- Where a descriptor leads. -/
inductive Channel where
  | outlet (o : Outlet)
  /-- The input of the process. -/
  | input
  /-- A file that is added to. -/
  | file (p : Path)
  | buffer (n : Nat)
  | nothing
deriving Repr, DecidableEq

/-- What was asked of a shell as a whole. -/
structure Options where
  /-- A command that fails ends the script. -/
  strict : Bool
  /-- A parameter that is not set is an error. -/
  demanding : Bool
  /-- Commands are shown before they are run. -/
  traced : Bool
deriving Repr, DecidableEq

/-- What is asked when nothing is said. -/
def Options.usual : Options := ⟨false, false, false⟩

/-- The options with one of them asked for or not. -/
def Options.with (isAsked : Bool) (letter : Char) (o : Options) : Options :=
  match letter with
  | 'e' => { o with strict := isAsked }
  | 'u' => { o with demanding := isAsked }
  | 'x' => { o with traced := isAsked }
  | _ => o

/-- A command that runs in the background, in the state that the shell was in. -/
structure Job where
  id : Nat
  body : Command
  arguments : List Octets
  values : Table Octets Octets
  directory : Path
  descriptors : Table Nat Channel

/-- The state of a shell. -/
structure Machine where
  name : Octets
  arguments : List Octets
  values : Table Octets Octets
  exported : List Octets
  /-- The variables that may not be set any more. -/
  fixed : List Octets
  functions : Table Octets Command
  /-- What is to be done on a signal, by the name of the signal. -/
  traps : Table Octets Octets
  status : Nat
  /-- The status of the last script whose output was substituted. -/
  substituted : Nat
  line : Nat
  processId : Nat
  directory : Path
  descriptors : Table Nat Channel
  buffers : Table Nat Octets
  nextBuffer : Nat
  options : Options
  /-- Whether something else looks at the status of the command at hand. -/
  guarded : Bool
  /-- How many functions have called one another. -/
  calls : Nat
  /-- How many loops run in the function at hand. -/
  loops : Nat
  /-- What the variables were that are local to the function at hand. -/
  hidden : Table Octets (Option Octets)
  /-- The commands in the background that are still to be run. -/
  jobs : List Job
  /-- The number of the last process in the background. -/
  lastJob : Option Nat

/-- Ways to leave a command early. -/
inductive Leave where
  | exit (code : Nat)
  | fromFunction (code : Nat)
  /-- Leave so many loops. -/
  | loops (count : Nat)
  /-- Go on with the next turn of the loop that many loops out. -/
  | turns (count : Nat)
deriving Repr, DecidableEq

/-- What a shell does. -/
abbrev Sh := ExceptT Leave (StateT Machine Behaviour)

namespace Sh

variable {α : Type}

/-- Do something outside of the shell. -/
def act (b : Behaviour α) : Sh α :=
  ExceptT.lift (StateT.lift b)

def observe (f : FileTree → α) : Sh α := act (.look fun t => .done (f t))

def perform (op : FileOp) : Sh (Except OsError Unit) := act (.step op .done)

/-- Never be seen again. -/
def busy : Sh α := act .busy

/-- A path as the shell means it. -/
def resolve (s : Octets) : Sh Path := do
  let p : Path := ⟨Octets.decode s⟩
  if p.text.isEmpty then pure p else pure ((← get).directory.join p)

/-- Write to a channel. -/
def emitTo (channel : Channel) (s : Octets) : Sh Unit := do
  if s.isEmpty then pure ()
  else
    match channel with
    | .outlet o => act (.write o (Octets.toBytes s) .done)
    | .file p => do
        let _ ← perform (.append p (Octets.toBytes s))
    | .buffer n =>
        modify fun m =>
          { m with buffers := Table.put n (((Table.get? n m.buffers).getD "") ++ s) m.buffers }
    | .input => pure ()
    | .nothing => pure ()

/-- Write to a descriptor. -/
def emit (descriptor : Nat) (s : Octets) : Sh Unit := do
  match Table.get? descriptor (← get).descriptors with
  | some channel => emitTo channel s
  | none => pure ()

/-- Write a line of output. -/
def say (s : Octets) : Sh Unit := emit 1 (s ++ "\n")

/-- Write a line about an error. -/
def complain (s : Octets) : Sh Unit := emit 2 (s ++ "\n")

/-- Write a line about an error of the script. -/
def report (s : Octets) : Sh Unit := do
  let m ← get
  complain (m.name ++ ": " ++ toString m.line ++ ": " ++ s)

/-- A new buffer with some content. -/
def newBuffer (content : Octets) : Sh Nat := fun m =>
  let n := m.nextBuffer
  .done (.ok n, { m with nextBuffer := n + 1, buffers := Table.put n content m.buffers })

/-- What is in a buffer; it is empty afterwards. -/
def takeBuffer (n : Nat) : Sh Octets := fun m =>
  .done (.ok ((Table.get? n m.buffers).getD ""), { m with buffers := Table.put n "" m.buffers })

/-- The next line of the input, with its line feed; nothing at the end. -/
def readLine : Sh Octets := do
  match Table.get? 0 (← get).descriptors with
  | some .input =>
      match ← act (.receive .done) with
      | some bytes => pure (Octets.ofBytes bytes)
      | none => pure ""
  | some (.buffer n) =>
      let (line, rest) := Octets.splitLine ((Table.get? n (← get).buffers).getD "").toList
      modify fun m => { m with buffers := Table.put n (String.ofList rest) m.buffers }
      pure (String.ofList line)
  | _ => pure ""

/-- The lines of the input up to its end, and no more than so many. -/
def readLines : Nat → Octets → Sh Octets
  | 0, _ => busy
  | count + 1, found => do
      let line ← readLine
      if line.isEmpty then pure found else readLines count (found ++ line)

/-- The most lines that are read. -/
def lineLimit : Nat := 1000000

/-- The rest of the input. -/
def readInput : Sh Octets := do
  match Table.get? 0 (← get).descriptors with
  | some (.buffer n) => takeBuffer n
  | some .input => readLines lineLimit ""
  | _ => pure ""

/-- The value of a variable. -/
def valueOf? (name : Octets) : Sh (Option Octets) := do
  pure (Table.get? name (← get).values)

/-- Give a variable back the value that it had, or none. -/
def restore (name : Octets) (value : Option Octets) : Sh Unit :=
  modify fun m =>
    { m with
      values := match value with
        | some value => Table.put name value m.values
        | none => Table.erase name m.values }

/-- Say that an expansion or a command of the shell is impossible and leave the script. -/
def giveUp (message : Octets) : Sh α := do
  report message
  throw (.exit 2)

/-- Set a variable, unless it is fixed. -/
def setVariable (name value : Octets) : Sh Unit := do
  if (← get).fixed.contains name then giveUp (name ++ ": is read only")
  else modify fun m => { m with values := Table.put name value m.values }

/-- The status that leaving a script early amounts to. -/
def Leave.status (current : Nat) : Leave → Nat
  | .exit code => code
  | .fromFunction code => code
  | .loops _ => current
  | .turns _ => current

/-- Run in a shell of its own, in some state, that shares files and buffers only. -/
def inShell (start : Machine → Machine) (body : Sh Unit) : Sh Nat := fun m =>
  Behaviour.bind (body.run.run { start m with jobs := [] }) fun (result, inner) =>
    let status := match result with
      | .ok _ => inner.status
      | .error leave => Leave.status inner.status leave
    .done (.ok status, { m with buffers := inner.buffers, nextBuffer := inner.nextBuffer })

/-- Run in a shell of its own that shares files and buffers only. -/
def inSubshell (body : Sh Unit) : Sh Nat := inShell id body

/-- Run in the shell of a command in the background. -/
def asJob (job : Job) (body : Sh Unit) : Sh Nat :=
  inShell
    (fun m =>
      { m with
        arguments := job.arguments
        values := job.values
        directory := job.directory
        descriptors := job.descriptors })
    body

/-- Do something that nobody waits for. -/
def detached (body : Sh α) : Sh α := fun m => Behaviour.detached (body.run.run m)

/-- Do something while something else looks at the status of its commands. -/
def guarding (body : Sh Unit) : Sh Unit := do
  let before := (← get).guarded
  modify fun m => { m with guarded := true }
  body
  modify fun m => { m with guarded := before }

/-- What is added to the number of a signal for the status of a process that it ended. -/
def signalBase : Nat := 128

/-- How a program takes the place of a command. -/
inductive Manner where
  /-- It is a process that the shell waits for. -/
  | child
  /-- It goes on in the process of the shell. -/
  | inPlace
deriving Repr, DecidableEq

/-- What is said of a process that a signal ended, unless nothing is. -/
def signalled? (signal : Nat) : Option Octets :=
  [ (1, "Hangup"), (3, "Quit"), (6, "Aborted"), (9, "Killed"), (10, "User defined signal 1")
  , (11, "Segmentation fault"), (12, "User defined signal 2"), (14, "Alarm clock")
  , (15, "Terminated") ].lookup signal

/-- Run as a process of its own, started in some state. -/
def asProcess (manner : Manner) (start : Machine → Machine) (body : Sh Unit) : Sh Nat := fun m =>
  let finish (result : Except Leave Unit) (inner : Machine) : Behaviour (Except Leave Nat × Machine) :=
    let status := match result with
      | .ok _ => inner.status
      | .error leave => Leave.status inner.status leave
    .done (.ok status, { m with buffers := inner.buffers, nextBuffer := inner.nextBuffer })
  match manner with
  | .inPlace => Behaviour.bind (body.run.run (start m)) fun (result, inner) => finish result inner
  | .child =>
      Behaviour.bind (Behaviour.rescue (body.run.run (start m))) fun
        | .ok (result, inner) => finish result inner
        | .error signal =>
            (do
              (signalled? signal).forM complain
              pure (signalBase + signal) : Sh Nat).run.run m

/-- Run with other descriptors. -/
def withDescriptors (change : Table Nat Channel → Table Nat Channel) (body : Sh α) : Sh α :=
  fun m =>
    Behaviour.bind (body.run.run { m with descriptors := change m.descriptors }) fun
      (result, inner) => .done (result, { inner with descriptors := m.descriptors })

end Sh

end Automation.Shell
