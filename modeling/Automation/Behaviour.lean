import Automation.Files.Action

/-
What a running process does.

A process looks at files and changes them, writes to its two outputs, waits for input and lets
time pass, and ends with a code or by a signal.  What it does next depends on what it is answered.
-/

namespace Automation

/-- The two outputs of a process. -/
inductive Outlet where
  | output
  | errors
deriving Repr, DecidableEq

/-- What a process does until it comes to a value. -/
inductive Behaviour (α : Type) where
  | done (value : α)
  /-- The process is ended by a signal. -/
  | signalled (signal : Nat)
  /-- The process goes on for ever and is not seen to do anything any more. -/
  | busy
  | look (next : FileTree → Behaviour α)
  | step (op : FileOp) (next : Except OsError Unit → Behaviour α)
  | write (outlet : Outlet) (bytes : ByteArray) (next : Unit → Behaviour α)
  /-- The process asks for the next line of its input; at the end there is none. -/
  | receive (next : Option ByteArray → Behaviour α)
  | pause (millis : Nat) (next : Unit → Behaviour α)

namespace Behaviour

variable {α β : Type}

/-- Go on with the value. -/
def bind : Behaviour α → (α → Behaviour β) → Behaviour β
  | done value, f => f value
  | signalled signal, _ => .signalled signal
  | busy, _ => .busy
  | look next, f => .look fun t => bind (next t) f
  | step op next, f => .step op fun outcome => bind (next outcome) f
  | write outlet bytes next, f => .write outlet bytes fun u => bind (next u) f
  | receive next, f => .receive fun line => bind (next line) f
  | pause millis next, f => .pause millis fun u => bind (next u) f

instance : Monad Behaviour where
  pure := .done
  bind := Behaviour.bind

/-- A child process: a signal ends the child and not the process that waits for it. -/
def rescue : Behaviour α → Behaviour (Except Nat α)
  | done value => .done (.ok value)
  | signalled signal => .done (.error signal)
  | busy => .busy
  | look next => .look fun t => rescue (next t)
  | step op next => .step op fun outcome => rescue (next outcome)
  | write outlet bytes next => .write outlet bytes fun u => rescue (next u)
  | receive next => .receive fun line => rescue (next line)
  | pause millis next => .pause millis fun u => rescue (next u)

/-- A process that is not waited for: the time it takes is not counted. -/
def detached : Behaviour α → Behaviour α
  | done value => .done value
  | signalled signal => .signalled signal
  | busy => .busy
  | look next => .look fun t => detached (next t)
  | step op next => .step op fun outcome => detached (next outcome)
  | write outlet bytes next => .write outlet bytes fun u => detached (next u)
  | receive next => .receive fun line => detached (next line)
  | pause _ next => detached (next ())

end Behaviour

/-- How a process ended. -/
inductive Ending where
  | exited (code : Nat)
  | signalled (signal : Nat)
  /-- It took too long and was stopped. -/
  | timedOut
deriving Repr, DecidableEq

/-- What a process that was run to its end has left: the pieces it wrote to each output, in order,
and the files. -/
structure Finished where
  ending : Ending
  output : List ByteArray
  errors : List ByteArray
  files : FileTree

/-- The outputs so far, the last piece first. -/
structure Written where
  output : List ByteArray
  errors : List ByteArray

namespace Written

def nothing : Written := ⟨[], []⟩

def add (w : Written) (bytes : ByteArray) : Outlet → Written
  | .output => { w with output := bytes :: w.output }
  | .errors => { w with errors := bytes :: w.errors }

/-- The end of a process with these outputs. -/
def finish (w : Written) (ending : Ending) (t : FileTree) : Finished :=
  ⟨ending, w.output.reverse, w.errors.reverse, t⟩

end Written

/-- Run a process without input to its end, or for as long as it may take. -/
def Behaviour.run (limit : Nat) : Behaviour Nat → Nat → Written → FileTree → Finished
  | done code, _, w, t => w.finish (.exited code) t
  | signalled signal, _, w, t => w.finish (.signalled signal) t
  | busy, _, w, t => w.finish .timedOut t
  | look next, elapsed, w, t => (next t).run limit elapsed w t
  | step op next, elapsed, w, t =>
      match FileAction.outcome op t with
      | (result, t) => (next result).run limit elapsed w t
  | write outlet bytes next, elapsed, w, t => (next ()).run limit elapsed (w.add bytes outlet) t
  | receive next, elapsed, w, t => (next none).run limit elapsed w t
  | pause millis next, elapsed, w, t =>
      if limit ≤ elapsed + millis then w.finish .timedOut t
      else (next ()).run limit (elapsed + millis) w t

/-- Where a process that is talked to has come to. -/
inductive Standing where
  /-- It waits for a line. -/
  | waiting (next : Option ByteArray → Behaviour Nat)
  | ended

/-- Run a process until it waits for input or ends. -/
def Behaviour.advance : Behaviour Nat → Written → FileTree → Standing × Written × FileTree
  | done _, w, t => (.ended, w, t)
  | signalled _, w, t => (.ended, w, t)
  | busy, w, t => (.ended, w, t)
  | look next, w, t => (next t).advance w t
  | step op next, w, t =>
      match FileAction.outcome op t with
      | (result, t) => (next result).advance w t
  | write outlet bytes next, w, t => (next ()).advance (w.add bytes outlet) t
  | receive next, w, t => (.waiting next, w, t)
  | pause _ next, w, t => (next ()).advance w t

end Automation
