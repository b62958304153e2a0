import Automation.Failure

/-
What can become of an action.

A run refuses a step only for what the files are.  A host has reasons of its own as well: a disk
is full, a directory may not be written to.  A history is one way an action can go on such a host;
it keeps every step that was tried with the files before and after it, so that a crash between two
steps leaves the files of one of them.
-/

namespace Automation

/-- A step that was tried: its outcome, and the files before and after it. -/
structure FileEvent where
  before : FileTree
  op : FileOp
  outcome : Except OsError Unit
  after : FileTree

/-- The step came out as the files alone decide. -/
def FileEvent.IsNatural (event : FileEvent) : Prop :=
  FileAction.outcome event.op event.before = (event.outcome, event.after)

namespace FileAction

variable {α β : Type}

/-- The ways an action can go.  A step is done as the files allow it, or refused for any reason
whatever, and then without effect. -/
inductive History : FileAction α → FileTree → List FileEvent → α → FileTree → Prop where
  | done {value : α} {t : FileTree} : History (.done value) t [] value t
  | look {next : FileTree → FileAction α} {t t' : FileTree} {events : List FileEvent} {value : α}
      (rest : History (next t) t events value t') : History (.look next) t events value t'
  | step {op : FileOp} {next : Except OsError Unit → FileAction α} {t t₁ t' : FileTree}
      {events : List FileEvent} {value : α} (happly : op.apply t = .ok t₁)
      (rest : History (next (.ok ())) t₁ events value t') :
      History (.step op next) t (⟨t, op, .ok (), t₁⟩ :: events) value t'
  | refused {op : FileOp} {next : Except OsError Unit → FileAction α} {t t' : FileTree}
      {events : List FileEvent} {value : α} (e : OsError)
      (rest : History (next (.error e)) t events value t') :
      History (.step op next) t (⟨t, op, .error e, t⟩ :: events) value t'

theorem history_pure_iff {value value' : α} {t t' : FileTree} {events : List FileEvent} :
    History (pure value) t events value' t' ↔ events = [] ∧ value' = value ∧ t' = t := by
  constructor
  · intro h
    cases h
    exact ⟨rfl, rfl, rfl⟩
  · rintro ⟨rfl, rfl, rfl⟩
    exact .done

theorem history_observe_iff {f : FileTree → α} {value : α} {t t' : FileTree}
    {events : List FileEvent} :
    History (observe f) t events value t' ↔ events = [] ∧ value = f t ∧ t' = t := by
  constructor
  · intro h
    cases h with
    | look rest =>
        cases rest
        exact ⟨rfl, rfl, rfl⟩
  · rintro ⟨rfl, rfl, rfl⟩
    exact .look .done

/-- A single step is done or refused. -/
theorem history_perform_iff {op : FileOp} {result : Except OsError Unit} {t t' : FileTree}
    {events : List FileEvent} :
    History (perform op) t events result t' ↔
      (op.apply t = .ok t' ∧ result = .ok () ∧ events = [⟨t, op, .ok (), t'⟩]) ∨
        ∃ e, result = .error e ∧ t' = t ∧ events = [⟨t, op, .error e, t⟩] := by
  constructor
  · intro h
    cases h with
    | step happly rest =>
        cases rest
        exact Or.inl ⟨happly, rfl, rfl⟩
    | refused e rest =>
        cases rest
        exact Or.inr ⟨e, rfl, rfl, rfl⟩
  · rintro (⟨happly, rfl, rfl⟩ | ⟨e, rfl, rfl, rfl⟩)
    · exact .step happly .done
    · exact .refused e .done

/-- There is no state between the beginning and the end of a single step. -/
theorem after_of_history_perform {op : FileOp} {result : Except OsError Unit} {t t' : FileTree}
    {events : List FileEvent} (h : History (perform op) t events result t') :
    ∀ event ∈ events, event.after = t' := by
  rcases history_perform_iff.mp h with ⟨_, _, rfl⟩ | ⟨e, _, rfl, rfl⟩
  · simp
  · simp

/-- A history of two actions is one of the first and then one of the second. -/
theorem history_bind_iff {action : FileAction α} {f : α → FileAction β} {t t' : FileTree}
    {events : List FileEvent} {value : β} :
    History (action >>= f) t events value t' ↔
      ∃ first middle t₁ second, events = first ++ second ∧ History action t first middle t₁ ∧
        History (f middle) t₁ second value t' := by
  change History (action.bind f) t events value t' ↔ _
  constructor
  · intro h
    induction action generalizing t events with
    | done middle => exact ⟨[], middle, t, events, rfl, .done, h⟩
    | look next ih =>
        cases h with
        | look rest =>
            obtain ⟨first, middle, t₁, second, rfl, hfirst, hsecond⟩ := ih t rest
            exact ⟨first, middle, t₁, second, rfl, .look hfirst, hsecond⟩
    | step op next ih =>
        cases h with
        | step happly rest =>
            obtain ⟨first, middle, t₁, second, rfl, hfirst, hsecond⟩ := ih _ rest
            exact ⟨_ :: first, middle, t₁, second, rfl, .step happly hfirst, hsecond⟩
        | refused e rest =>
            obtain ⟨first, middle, t₁, second, rfl, hfirst, hsecond⟩ := ih _ rest
            exact ⟨_ :: first, middle, t₁, second, rfl, .refused e hfirst, hsecond⟩
  · rintro ⟨first, middle, t₁, second, rfl, hfirst, hsecond⟩
    induction hfirst with
    | done => exact hsecond
    | look rest ih => exact .look (ih hsecond)
    | step happly rest ih => exact .step happly (ih hsecond)
    | refused e rest ih => exact .refused e (ih hsecond)

/-- The steps of a run. -/
def steps : FileAction α → FileTree → List FileEvent
  | done _, _ => []
  | look next, t => (next t).steps t
  | step op next, t =>
      match outcome op t with
      | (result, t') => ⟨t, op, result, t'⟩ :: (next result).steps t'

theorem steps_bind (action : FileAction α) (f : α → FileAction β) (t : FileTree) :
    (action >>= f).steps t = action.steps t ++ (f (action.run t).1).steps (action.run t).2 := by
  change (action.bind f).steps t = _
  induction action generalizing t with
  | done value => rfl
  | look next ih => simp [FileAction.bind, run, steps, ih]
  | step op next ih => simp [FileAction.bind, run, steps, ih]

/-- A run is a history. -/
theorem history_run (action : FileAction α) (t : FileTree) :
    History action t (action.steps t) (action.run t).1 (action.run t).2 := by
  induction action generalizing t with
  | done value => exact .done
  | look next ih => exact .look (ih t t)
  | step op next ih =>
      cases happly : op.apply t with
      | ok t₁ =>
          have houtcome : outcome op t = (.ok (), t₁) := by rw [outcome, happly]
          rw [run, steps, houtcome]
          exact .step happly (ih (.ok ()) t₁)
      | error e =>
          have houtcome : outcome op t = (.error e, t) := by rw [outcome, happly]
          rw [run, steps, houtcome]
          exact .refused e (ih (.error e) t)

/-- In a run the files alone decide. -/
theorem isNatural_of_mem_steps (action : FileAction α) (t : FileTree) :
    ∀ event ∈ action.steps t, event.IsNatural := by
  induction action generalizing t with
  | done value => simp [steps]
  | look next ih => exact ih t t
  | step op next ih => exact List.forall_mem_cons.mpr ⟨rfl, ih _ _⟩

namespace History

variable {action : FileAction α} {t t' : FileTree} {events : List FileEvent} {value : α}

/-- Where the files alone decide, there is one history, the run. -/
theorem run_eq (h : History action t events value t')
    (hnatural : ∀ event ∈ events, event.IsNatural) : action.run t = (value, t') := by
  induction h with
  | done => rfl
  | look rest ih => exact ih hnatural
  | step happly rest ih =>
      obtain ⟨hfirst, hrest⟩ := List.forall_mem_cons.mp hnatural
      rw [run, show outcome _ _ = _ from hfirst]
      exact ih hrest
  | refused e rest ih =>
      obtain ⟨hfirst, hrest⟩ := List.forall_mem_cons.mp hnatural
      rw [run, show outcome _ _ = _ from hfirst]
      exact ih hrest

/-- A step that was done is natural. -/
theorem isNatural_of_ok (h : History action t events value t') :
    ∀ event ∈ events, event.outcome = .ok () → event.IsNatural := by
  induction h with
  | done => simp
  | look rest ih => exact ih
  | step happly rest ih =>
      refine List.forall_mem_cons.mpr ⟨fun _ => ?_, ih⟩
      rw [FileEvent.IsNatural, outcome, happly]
  | refused e rest ih => exact List.forall_mem_cons.mpr ⟨fun hok => (by cases hok), ih⟩

end History

/-- All steps an action may try are of one kind. -/
def Tries (kind : FileOp → Prop) : FileAction α → Prop
  | done _ => True
  | look next => ∀ t, (next t).Tries kind
  | step op next => kind op ∧ ∀ outcome, (next outcome).Tries kind

section Tries

variable {kind : FileOp → Prop}

theorem tries_pure (value : α) : (pure value : FileAction α).Tries kind := trivial

theorem tries_observe (f : FileTree → α) : (observe f).Tries kind := fun _ => trivial

theorem tries_perform {op : FileOp} (h : kind op) : (perform op).Tries kind :=
  ⟨h, fun _ => trivial⟩

theorem Tries.bind {action : FileAction α} {f : α → FileAction β} (h : action.Tries kind)
    (hf : ∀ value, (f value).Tries kind) : (action >>= f).Tries kind := by
  change (action.bind f).Tries kind
  induction action with
  | done value => exact hf value
  | look next ih => exact fun t => ih t (h t)
  | step op next ih => exact ⟨h.1, fun outcome => ih outcome (h.2 outcome)⟩

/-- To remove a file that may be missing is to try to remove it. -/
theorem tries_removeIfExists {p : Path} (h : kind (.unlink p)) : (removeIfExists p).Tries kind := by
  apply (tries_perform h).bind
  intro outcome
  split
  · exact tries_pure _
  · exact tries_pure _

theorem tries_forM {values : List α} {act : α → FileAction Unit}
    (h : ∀ value ∈ values, (act value).Tries kind) : (values.forM act).Tries kind := by
  induction values with
  | nil => exact tries_pure ()
  | cons value rest ih =>
      refine (h value List.mem_cons_self).bind fun _ => ?_
      exact ih fun other hother => h other (List.mem_cons_of_mem value hother)

theorem Tries.mono {kind' : FileOp → Prop} {action : FileAction α} (h : action.Tries kind)
    (hmono : ∀ op, kind op → kind' op) : action.Tries kind' := by
  induction action with
  | done value => trivial
  | look next ih => exact fun t => ih t (h t)
  | step op next ih => exact ⟨hmono op h.1, fun outcome => ih outcome (h.2 outcome)⟩

variable {action : FileAction α} {t t' : FileTree} {events : List FileEvent} {value : α}

theorem History.kind_of_mem (h : History action t events value t') (htries : action.Tries kind) :
    ∀ event ∈ events, kind event.op := by
  induction h with
  | done => simp
  | look rest ih => exact ih (htries _)
  | step happly rest ih => exact List.forall_mem_cons.mpr ⟨htries.1, ih (htries.2 _)⟩
  | refused e rest ih => exact List.forall_mem_cons.mpr ⟨htries.1, ih (htries.2 _)⟩

/-- What every step of a kind keeps holds all the way. -/
theorem History.keeps {P : FileTree → Prop} (h : History action t events value t')
    (htries : action.Tries kind)
    (hkeeps : ∀ op t t', kind op → P t → op.apply t = .ok t' → P t') (ht : P t) :
    (∀ event ∈ events, P event.after) ∧ P t' := by
  induction h with
  | done => exact ⟨by simp, ht⟩
  | look rest ih => exact ih (htries _) ht
  | step happly rest ih =>
      have hnext := hkeeps _ _ _ htries.1 ht happly
      obtain ⟨hevents, hend⟩ := ih (htries.2 _) hnext
      exact ⟨List.forall_mem_cons.mpr ⟨hnext, hevents⟩, hend⟩
  | refused e rest ih =>
      obtain ⟨hevents, hend⟩ := ih (htries.2 _) ht
      exact ⟨List.forall_mem_cons.mpr ⟨ht, hevents⟩, hend⟩

end Tries

end FileAction

namespace FileTask

variable {α β : Type} {t t' : FileTree} {events : List FileEvent}

open FileAction

/-- A task goes on after its first part, or ends with the failure of that. -/
theorem history_bind_iff {task : FileTask α} {f : α → FileTask β}
    {result : Except Failure β} :
    History (task >>= f).run t events result t' ↔
      (∃ failure, result = .error failure ∧ History task.run t events (.error failure) t') ∨
        ∃ first value t₁ second, events = first ++ second ∧
          History task.run t first (.ok value) t₁ ∧ History (f value).run t₁ second result t' := by
  change History (task.run >>= ExceptT.bindCont f) t events result t' ↔ _
  rw [FileAction.history_bind_iff]
  constructor
  · rintro ⟨first, middle, t₁, second, rfl, hfirst, hsecond⟩
    cases middle with
    | ok value => exact Or.inr ⟨first, value, t₁, second, rfl, hfirst, hsecond⟩
    | error failure =>
        obtain ⟨rfl, rfl, rfl⟩ := history_pure_iff.mp hsecond
        rw [List.append_nil]
        exact Or.inl ⟨failure, rfl, hfirst⟩
  · rintro (⟨failure, rfl, hfirst⟩ | ⟨first, value, t₁, second, rfl, hfirst, hsecond⟩)
    · exact ⟨events, .error failure, t', [], by simp, hfirst, history_pure_iff.mpr ⟨rfl, rfl, rfl⟩⟩
    · exact ⟨first, .ok value, t₁, second, rfl, hfirst, hsecond⟩

theorem history_lift_iff {action : FileAction α} {result : Except Failure α} :
    History (ExceptT.lift action : FileTask α).run t events result t' ↔
      ∃ value, result = .ok value ∧ History action t events value t' := by
  change History (action >>= fun value => pure (Except.ok value)) t events result t' ↔ _
  rw [FileAction.history_bind_iff]
  constructor
  · rintro ⟨first, value, t₁, second, rfl, hfirst, hsecond⟩
    obtain ⟨rfl, rfl, rfl⟩ := history_pure_iff.mp hsecond
    rw [List.append_nil]
    exact ⟨value, rfl, hfirst⟩
  · rintro ⟨value, rfl, hfirst⟩
    exact ⟨events, value, t', [], by simp, hfirst, history_pure_iff.mpr ⟨rfl, rfl, rfl⟩⟩

/-- An action that cannot fail is followed by the rest of the task. -/
theorem history_lift_bind_iff {action : FileAction α} {f : α → FileTask β}
    {result : Except Failure β} :
    History (ExceptT.lift action >>= f : FileTask β).run t events result t' ↔
      ∃ first value t₁ second, events = first ++ second ∧ History action t first value t₁ ∧
        History (f value).run t₁ second result t' := by
  rw [history_bind_iff]
  simp only [history_lift_iff]
  constructor
  · rintro (⟨failure, -, value, herror, -⟩ | ⟨first, _, t₁, second, rfl, ⟨value, hok, hfirst⟩, hsecond⟩)
    · cases herror
    · obtain rfl := Except.ok.inj hok
      exact ⟨first, _, t₁, second, rfl, hfirst, hsecond⟩
  · rintro ⟨first, value, t₁, second, rfl, hfirst, hsecond⟩
    exact Or.inr ⟨first, value, t₁, second, rfl, ⟨value, rfl, hfirst⟩, hsecond⟩

/-- A task that is part of an activity fails when the system refuses it. -/
theorem history_during_iff {activity : Activity} {action : FileAction (Except OsError α)}
    {result : Except Failure α} :
    History (during activity action).run t events result t' ↔
      (∃ value, result = .ok value ∧ History action t events (.ok value) t') ∨
        ∃ e, result = .error ⟨[activity], .os e⟩ ∧ History action t events (.error e) t' := by
  change History (action >>= _) t events result t' ↔ _
  rw [FileAction.history_bind_iff]
  constructor
  · rintro ⟨first, middle, t₁, second, rfl, hfirst, hsecond⟩
    cases middle with
    | ok value =>
        obtain ⟨rfl, rfl, rfl⟩ := history_pure_iff.mp hsecond
        rw [List.append_nil]
        exact Or.inl ⟨value, rfl, hfirst⟩
    | error e =>
        obtain ⟨rfl, rfl, rfl⟩ := history_pure_iff.mp hsecond
        rw [List.append_nil]
        exact Or.inr ⟨e, rfl, hfirst⟩
  · rintro (⟨value, rfl, hfirst⟩ | ⟨e, rfl, hfirst⟩)
    · exact ⟨events, .ok value, t', [], by simp, hfirst, history_pure_iff.mpr ⟨rfl, rfl, rfl⟩⟩
    · exact ⟨events, .error e, t', [], by simp, hfirst, history_pure_iff.mpr ⟨rfl, rfl, rfl⟩⟩

/-- A task goes on after the action of an activity, or ends where the system refuses that. -/
theorem history_during_bind_iff {activity : Activity} {action : FileAction (Except OsError α)}
    {f : α → FileTask β} {result : Except Failure β} :
    History (during activity action >>= f).run t events result t' ↔
      (∃ e, result = .error ⟨[activity], .os e⟩ ∧ History action t events (.error e) t') ∨
        ∃ first value t₁ second, events = first ++ second ∧ History action t first (.ok value) t₁ ∧
          History (f value).run t₁ second result t' := by
  rw [history_bind_iff]
  simp only [history_during_iff]
  constructor
  · rintro (⟨failure, rfl, ⟨_, herror, -⟩ | ⟨e, herror, hrefused⟩⟩ |
      ⟨first, value, t₁, second, rfl, ⟨_, hok, hfirst⟩ | ⟨e, herror, -⟩, hsecond⟩)
    · cases herror
    · cases herror
      exact Or.inl ⟨e, rfl, hrefused⟩
    · cases hok
      exact Or.inr ⟨first, value, t₁, second, rfl, hfirst, hsecond⟩
    · cases herror
  · rintro (⟨e, rfl, hrefused⟩ | ⟨first, value, t₁, second, rfl, hfirst, hsecond⟩)
    · exact Or.inl ⟨_, rfl, Or.inr ⟨e, rfl, hrefused⟩⟩
    · exact Or.inr ⟨first, value, t₁, second, rfl, Or.inl ⟨value, rfl, hfirst⟩, hsecond⟩

/-- A single step that is part of an activity is done or refused. -/
theorem history_during_perform_iff {activity : Activity} {op : FileOp} {result : Except Failure Unit} :
    History (during activity (perform op)).run t events result t' ↔
      (op.apply t = .ok t' ∧ result = .ok () ∧ events = [⟨t, op, .ok (), t'⟩]) ∨
        ∃ e, result = .error ⟨[activity], .os e⟩ ∧ t' = t ∧ events = [⟨t, op, .error e, t⟩] := by
  rw [history_during_iff]
  constructor
  · rintro (⟨value, rfl, hdone⟩ | ⟨e, rfl, hrefused⟩)
    · rcases FileAction.history_perform_iff.mp hdone with ⟨happly, -, hevents⟩ | ⟨e, hok, -⟩
      · exact Or.inl ⟨happly, rfl, hevents⟩
      · cases hok
    · rcases FileAction.history_perform_iff.mp hrefused with ⟨-, hok, -⟩ | ⟨e', herror, ht, hevents⟩
      · cases hok
      · cases herror
        exact Or.inr ⟨e, rfl, ht, hevents⟩
  · rintro (⟨happly, rfl, hevents⟩ | ⟨e, rfl, ht, hevents⟩)
    · exact Or.inl ⟨(), rfl, FileAction.history_perform_iff.mpr (Or.inl ⟨happly, rfl, hevents⟩)⟩
    · exact Or.inr ⟨e, rfl, FileAction.history_perform_iff.mpr (Or.inr ⟨e, rfl, ht, hevents⟩)⟩

section Tries

variable {kind : FileOp → Prop}

theorem tries_bind {task : FileTask α} {f : α → FileTask β} (h : task.run.Tries kind)
    (hf : ∀ value, (f value).run.Tries kind) : (task >>= f).run.Tries kind := by
  refine Tries.bind h fun result => ?_
  cases result with
  | ok value => exact hf value
  | error failure => exact tries_pure _

theorem tries_observe (f : FileTree → α) : (observe f).run.Tries kind :=
  (FileAction.tries_observe f).bind fun _ => tries_pure _

theorem tries_forM {values : List α} {task : α → FileTask Unit}
    (h : ∀ value ∈ values, (task value).run.Tries kind) : (values.forM task).run.Tries kind := by
  induction values with
  | nil => exact tries_pure _
  | cons value rest ih =>
      refine tries_bind (h value List.mem_cons_self) fun _ => ?_
      exact ih fun other hother => h other (List.mem_cons_of_mem value hother)

theorem tries_during {activity : Activity} {action : FileAction (Except OsError α)}
    (h : action.Tries kind) : (during activity action).run.Tries kind := by
  refine h.bind fun result => ?_
  cases result with
  | ok value => exact tries_pure _
  | error e => exact tries_pure _

end Tries

end FileTask

end Automation
