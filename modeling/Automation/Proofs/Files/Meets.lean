import Automation.Failure

/-
What actions on files guarantee.

An action meets a guarantee when it leads from every tree of one kind to a value and a tree of
another kind.  A task that fails has a guarantee of its own.  One rule for each way to build an
action or a task is all that is needed to go through a longer one.
-/

namespace Automation

namespace FileAction

variable {α β : Type} {P P' : FileTree → Prop} {Q Q' : α → FileTree → Prop}
  {R : β → FileTree → Prop}

/-- From trees of one kind, the action ends with values and trees of another. -/
structure Meets (P : FileTree → Prop) (action : FileAction α) (Q : α → FileTree → Prop) :
    Prop where
  run : ∀ t, P t → Q (action.run t).1 (action.run t).2

theorem meets_pure {value : α} (h : ∀ t, P t → Q value t) : Meets P (pure value) Q :=
  ⟨h⟩

theorem Meets.bind {action : FileAction α} {f : α → FileAction β} (h : Meets P action Q)
    (hf : ∀ value, Meets (Q value) (f value) R) : Meets P (action >>= f) R := by
  constructor
  intro t ht
  rw [run_bind]
  exact (hf _).run _ (h.run t ht)

theorem Meets.mono {action : FileAction α} (h : Meets P action Q) (hpre : ∀ t, P' t → P t)
    (hpost : ∀ value t, Q value t → Q' value t) : Meets P' action Q' :=
  ⟨fun t ht => hpost _ _ (h.run t (hpre t ht))⟩

theorem Meets.and {action : FileAction α} (h : Meets P action Q) (h' : Meets P action Q') :
    Meets P action fun value t => Q value t ∧ Q' value t :=
  ⟨fun t ht => ⟨h.run t ht, h'.run t ht⟩⟩

theorem meets_observe {f : FileTree → α} (h : ∀ t, P t → Q (f t) t) : Meets P (observe f) Q :=
  ⟨h⟩

theorem meets_perform {op : FileOp} {Q : Except OsError Unit → FileTree → Prop}
    (hok : ∀ t t', P t → op.apply t = .ok t' → Q (.ok ()) t')
    (herror : ∀ t e, P t → op.apply t = .error e → Q (.error e) t) :
    Meets P (perform op) Q := by
  constructor
  intro t ht
  change Q (outcome op t).1 (outcome op t).2
  rw [outcome]
  cases happly : op.apply t with
  | ok t' => exact hok t t' ht happly
  | error e => exact herror t e ht happly

/-- A step that keeps a kind of tree keeps it whatever becomes of it. -/
theorem meets_perform_of_keeps {op : FileOp} (h : ∀ t t', P t → op.apply t = .ok t' → P t') :
    Meets P (perform op) fun _ t => P t :=
  meets_perform h fun _ _ ht _ => ht

theorem meets_forM {values : List α} {act : α → FileAction Unit}
    (h : ∀ value ∈ values, Meets P (act value) fun _ t => P t) :
    Meets P (values.forM act) fun _ t => P t := by
  induction values with
  | nil => exact meets_pure fun _ ht => ht
  | cons value rest ih =>
      refine (h value List.mem_cons_self).bind fun _ => ?_
      exact ih fun other hother => h other (List.mem_cons_of_mem value hother)

end FileAction

namespace FileTask

/-- A task goes on with the value of its first part, unless that part fails. -/
theorem run_bind {α β : Type} (task : FileTask α) (f : α → FileTask β) (t : FileTree) :
    FileAction.run (task >>= f).run t =
      match FileAction.run task.run t with
      | (.ok value, t) => FileAction.run (f value).run t
      | (.error failure, t) => (.error failure, t) := by
  change FileAction.run (task.run >>= ExceptT.bindCont f) t = _
  rw [FileAction.run_bind]
  cases FileAction.run task.run t with
  | mk result t' => cases result <;> rfl

section Run

variable {α : Type}

theorem run_pure (value : α) (t : FileTree) :
    FileAction.run (pure value : FileTask α).run t = (.ok value, t) := rfl

theorem run_ofExcept (value : Except Failure α) (t : FileTree) :
    FileAction.run (ofExcept value).run t = (value, t) := rfl

theorem run_observe (f : FileTree → α) (t : FileTree) :
    FileAction.run (observe f).run t = (.ok (f t), t) := rfl

theorem run_lift (action : FileAction α) (t : FileTree) :
    FileAction.run (ExceptT.lift action : FileTask α).run t =
      (.ok (action.run t).1, (action.run t).2) := by
  change (action >>= fun value => pure (Except.ok value)).run t = _
  rw [FileAction.run_bind, FileAction.run_pure]

theorem run_during (activity : Activity) (action : FileAction (Except OsError α)) (t : FileTree) :
    FileAction.run (during activity action).run t =
      match action.run t with
      | (.ok value, t) => (.ok value, t)
      | (.error e, t) => (.error ⟨[activity], .os e⟩, t) := by
  change (action >>= _).run t = _
  rw [FileAction.run_bind]
  cases action.run t with
  | mk result t' => cases result <;> rfl

end Run

variable {α β : Type} {P E : FileTree → Prop} {Q : α → FileTree → Prop}
  {R : β → FileTree → Prop}

/-- What holds at the end of a task, by how it ended. -/
def Outcome (Q : α → FileTree → Prop) (E : FileTree → Prop) :
    Except Failure α → FileTree → Prop
  | .ok value => Q value
  | .error _ => E

/-- The same for tasks, with another guarantee when they fail. -/
def Meets (P : FileTree → Prop) (task : FileTask α) (Q : α → FileTree → Prop)
    (E : FileTree → Prop) : Prop :=
  FileAction.Meets P task.run (Outcome Q E)

/-- A task about which nothing is said. -/
theorem meets_trivial (task : FileTask α) :
    Meets (fun _ => True) task (fun _ _ => True) fun _ => True := by
  constructor
  intro t _
  cases (task.run.run t).1 <;> trivial

theorem meets_pure {value : α} (h : ∀ t, P t → Q value t) :
    Meets P (pure value : FileTask α) Q E :=
  ⟨h⟩

theorem meets_throw {f : Failure} (h : ∀ t, P t → E t) : Meets P (throw f : FileTask α) Q E :=
  ⟨h⟩

theorem Meets.bind {task : FileTask α} {f : α → FileTask β} (h : Meets P task Q E)
    (hf : ∀ value, Meets (Q value) (f value) R E) : Meets P (task >>= f) R E := by
  refine FileAction.Meets.bind h fun result => ?_
  cases result with
  | ok value => exact hf value
  | error failure => exact FileAction.meets_pure fun _ ht => ht

theorem meets_lift {action : FileAction α} (h : FileAction.Meets P action Q) :
    Meets P (ExceptT.lift action : FileTask α) Q E := by
  change FileAction.Meets P (action >>= fun value => pure (Except.ok value)) (Outcome Q E)
  exact h.bind fun value => FileAction.meets_pure fun _ ht => ht

theorem meets_observe {f : FileTree → α} (h : ∀ t, P t → Q (f t) t) : Meets P (observe f) Q E :=
  meets_lift (FileAction.meets_observe h)

theorem meets_during {activity : Activity} {action : FileAction (Except OsError α)}
    (h : FileAction.Meets P action fun result t =>
      match result with
      | .ok value => Q value t
      | .error _ => E t) :
    Meets P (during activity action) Q E := by
  refine FileAction.Meets.bind h fun result => ?_
  cases result with
  | ok value => exact FileAction.meets_pure fun _ ht => ht
  | error e => exact FileAction.meets_pure fun _ ht => ht

end FileTask

end Automation
