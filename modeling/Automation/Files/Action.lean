import Automation.Files.Operation

/-
Courses of action on files.

An action looks at the files and changes them step by step, and what it does next depends on what
it saw and on which steps were refused.  Keeping the steps apart makes the states between them
visible: `run` gives the end of an action, `states` all it passes through.
-/

namespace Automation

/-- A course of action on files that ends with a value. -/
inductive FileAction (α : Type) where
  | done (value : α)
  | look (next : FileTree → FileAction α)
  | step (op : FileOp) (next : Except OsError Unit → FileAction α)

namespace FileAction

variable {α β : Type}

/-- Go on with the value an action ends with. -/
def bind : FileAction α → (α → FileAction β) → FileAction β
  | done value, f => f value
  | look next, f => .look fun t => bind (next t) f
  | step op next, f => .step op fun outcome => bind (next outcome) f

instance : Monad FileAction where
  pure := .done
  bind := FileAction.bind

/-- Do one step and say whether it was refused. -/
def perform (op : FileOp) : FileAction (Except OsError Unit) := .step op .done

/-- Look at the files. -/
def observe (f : FileTree → α) : FileAction α := .look fun t => .done (f t)

/-- The files after a step, and its outcome. -/
def outcome (op : FileOp) (t : FileTree) : Except OsError Unit × FileTree :=
  match op.apply t with
  | .ok t => (.ok (), t)
  | .error e => (.error e, t)

/-- The value an action ends with and the files it leaves. -/
def run : FileAction α → FileTree → α × FileTree
  | done value, t => (value, t)
  | look next, t => (next t).run t
  | step op next, t =>
      match outcome op t with
      | (result, t) => (next result).run t

/-- The files after each step of an action. -/
def states : FileAction α → FileTree → List FileTree
  | done _, _ => []
  | look next, t => (next t).states t
  | step op next, t =>
      match outcome op t with
      | (result, t) => t :: (next result).states t

@[simp] theorem run_pure (value : α) (t : FileTree) :
    (pure value : FileAction α).run t = (value, t) := rfl

@[simp] theorem run_bind (action : FileAction α) (f : α → FileAction β) (t : FileTree) :
    (action >>= f).run t = (f (action.run t).1).run (action.run t).2 := by
  change (action.bind f).run t = _
  induction action generalizing t with
  | done value => rfl
  | look next ih => simp [bind, run, ih]
  | step op next ih => simp [bind, run, ih]

@[simp] theorem states_pure (value : α) (t : FileTree) :
    (pure value : FileAction α).states t = [] := rfl

@[simp] theorem states_bind (action : FileAction α) (f : α → FileAction β) (t : FileTree) :
    (action >>= f).states t =
      action.states t ++ (f (action.run t).1).states (action.run t).2 := by
  change (action.bind f).states t = _
  induction action generalizing t with
  | done value => rfl
  | look next ih => simp [bind, run, states, ih]
  | step op next ih => simp [bind, run, states, ih]

theorem bind_done (action : FileAction α) : action.bind .done = action := by
  induction action with
  | done value => rfl
  | look next ih => simp only [bind, ih]
  | step op next ih => simp only [bind, ih]

theorem bind_bind {γ : Type} (action : FileAction α) (f : α → FileAction β)
    (g : β → FileAction γ) :
    (action.bind f).bind g = action.bind fun value => (f value).bind g := by
  induction action with
  | done value => rfl
  | look next ih => simp only [bind, ih]
  | step op next ih => simp only [bind, ih]

instance : LawfulMonad FileAction :=
  LawfulMonad.mk' FileAction bind_done (fun _ _ => rfl) bind_bind

/-- Make the missing ones among a directory and those above it. -/
def makeDirectories : List Path → FileAction (Except OsError Unit)
  | [] => pure (.ok ())
  | p :: above =>
      if p.text = "" ∨ p.parent?.isNone then pure (.ok ())
      else do
        match ← perform (.makeDirectory p) with
        | .ok _ => pure (.ok ())
        | .error .noEntry =>
            match ← makeDirectories above with
            | .error e => pure (.error e)
            | .ok _ =>
                match ← perform (.makeDirectory p) with
                | .ok _ => pure (.ok ())
                | .error e => if ← observe (·.isDirectory p) then pure (.ok ()) else pure (.error e)
        | .error e => if ← observe (·.isDirectory p) then pure (.ok ()) else pure (.error e)

/-- Make a directory with all those above it. -/
def createDirectory (p : Path) : FileAction (Except OsError Unit) :=
  makeDirectories p.ancestors

/-- Remove a file, if it is there. -/
def removeIfExists (p : Path) : FileAction (Except OsError Unit) := do
  match ← perform (.unlink p) with
  | .error .noEntry => pure (.ok ())
  | outcome => pure outcome

end FileAction

end Automation
