import Automation.Environment
import Automation.Instant

/-
The world that engines act on.

A host has files, processes and a clock.  What is beyond it, such as running units, is a
parameter: an engine never looks into it, and hands it on to the compilers and loaders that do.
-/

namespace Automation

/-- The part of the world that everybody knows. -/
structure Host where
  files : FileTree
  processes : ProcessTable
  now : Instant
  /-- The number that the search for the next fresh name starts from. -/
  fresh : Nat

/-- A host and what is beyond it. -/
structure World (τ : Type) where
  host : Host
  outside : τ

/-- An act in the world. -/
abbrev Act (τ : Type) := StateM (World τ)

/-- A part of a larger whole. -/
structure Part (τ σ : Type) where
  get : τ → σ
  set : σ → τ → τ

namespace World

variable {τ : Type}

/-- The world with other files. -/
def withFiles (w : World τ) (t : FileTree) : World τ :=
  { w with host := { w.host with files := t } }

/-- The world with another number for the next fresh name. -/
def withFresh (w : World τ) (n : Nat) : World τ :=
  { w with host := { w.host with fresh := n } }

end World

namespace Act

variable {τ σ α : Type}

/-- An action on the files of the host. -/
def files (action : FileAction α) : Act τ α := fun w =>
  let (value, t) := action.run w.host.files
  (value, w.withFiles t)

/-- A task on the files of the host. -/
def task (t : FileTask α) : Act τ (Except Failure α) := files t.run

/-- A task that uses fresh names.  It is given the number to start from, and also answers with
the number to go on with. -/
def freshTask (t : Nat → FileTask (α × Nat)) : Act τ (Except Failure α) := fun w =>
  match (files (t w.host.fresh).run).run w with
  | (.ok (value, next), w) => (.ok value, w.withFresh next)
  | (.error f, w) => (.error f, w)

/-- The time of the clock. -/
def now : Act τ Instant := fun w => (w.host.now, w)

/-- Change a part of what is beyond the host, and answer with something about it. -/
def outside (part : Part τ σ) (f : σ → α × σ) : Act τ α := fun w =>
  let (value, s) := f (part.get w.outside)
  (value, { w with outside := part.set s w.outside })

end Act

end Automation
