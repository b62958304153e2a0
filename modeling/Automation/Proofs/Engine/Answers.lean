import Automation.Proofs.Engine.Invoking

/-
What `setup` and `run` report.

Either operation asks a bound entry its own question once, or it has no entry to ask and says so.  What
it reports is the answer, with a yes in `setup` for a program that is to run anyway, and all that
changes of the program is when it was asked.
-/

namespace Automation

variable {τ ε : Type}

/-- The moment at which an entry is asked. -/
def Moment.isQuestion (moment : Moment τ ε) : Bool :=
  match moment.deed with
  | .asked .. => true
  | .opened .. => false

/-- The questions among the moments of an act. -/
def Watched.questions {α : Type} (told : Watched τ ε α) (s : EngineState τ ε) :
    List (Moment τ ε) :=
  (told.moments s).filter Moment.isQuestion

/-- An operation of entries, and what an engine makes of its answer. -/
structure Operation (τ ε : Type) where
  request : Request
  call : ε → Act τ (Except ScriptFault MethodRunResult × ε)
  /-- What is reported of an answer. -/
  report : ProgramBlock → MethodRunResult → MethodRunResult
  /-- The program once an answer has come. -/
  keep : ProgramBlock → Except ScriptFault MethodRunResult → Instant → ProgramBlock

namespace Operation

/-- A program that is to run anyway is activated whatever its entry answers. -/
def forced (p : ProgramBlock) (result : MethodRunResult) : MethodRunResult :=
  { result with returnValue := result.returnValue || p.willRun }

/-- `setup` keeps the time when it activates a program. -/
def setup (entries : Capabilities τ ε) : Operation τ ε where
  request := .setup
  call := entries.setup
  report := forced
  keep p answer time :=
    match answer with
    | .ok result => if (forced p result).returnValue then { p with activationTime := some time } else p
    | .error _ => p

/-- `run` keeps the time whatever comes of it. -/
def run (entries : Capabilities τ ε) (options : String) : Operation τ ε where
  request := .run options
  call entry := entries.run entry options
  report _ result := result
  keep p _ time := { p with triggerTime := some time }

/-- What an operation has asked, what it reports, and where it leaves the engine. -/
inductive Happens (op : Operation τ ε) (s : EngineState τ ε) : List (Moment τ ε) →
    Except ScriptFault (Option MethodRunResult) → EngineState τ ε → Prop where
  /-- No entry could be bound, and none was asked. -/
  | nothing {now : EngineState τ ε} (unbound : now.slot.context? = none)
      (program : now.program = s.program) : op.Happens s [] (.ok none) now
  /-- The bound entry was asked, and nothing else happened after that. -/
  | question {context : BoundContext ε} {ready : EngineState τ ε}
      {answer : Except ScriptFault MethodRunResult} {entry : ε} {world : World τ}
      (bound : ready.slot.context? = some context) (program : ready.program = s.program)
      (answered : (op.call context.entry).run ready.world = ((answer, entry), world)) :
      op.Happens s [⟨.asked op.request context, ready⟩]
        (answer.map fun result => some (op.report s.program result))
        { ready with
          world := world
          slot := ready.slot.withEntry entry
          program := op.keep s.program answer world.host.now }

end Operation

namespace Slot

theorem state_eq_loadedBound_iff {slot : Slot ε} :
    slot.state = .loadedBound ↔ slot.context? ≠ none := by
  cases slot with
  | unloaded => simp [state, context?]
  | loaded image context => cases context <;> simp [state, context?]

/-- Another entry is bound where one was. -/
theorem context?_withEntry (slot : Slot ε) (entry : ε) :
    (slot.withEntry entry).context? = slot.context?.map fun context =>
      { context with entry := entry } := by
  cases slot with
  | unloaded => rfl
  | loaded image context => cases context <;> rfl

end Slot

namespace Operation.Happens

variable {op : Operation τ ε} {s now : EngineState τ ε} {questions : List (Moment τ ε)}
  {reported : Except ScriptFault (Option MethodRunResult)}

/-- The report is empty exactly when nothing was asked. -/
theorem none_iff (h : op.Happens s questions reported now) :
    reported = .ok none ↔ questions = [] := by
  cases h with
  | nothing unbound program => simp
  | @question context ready answer => cases answer <;> simp [Except.map]

/-- A unit is bound afterwards exactly when it was asked. -/
theorem bound_iff (h : op.Happens s questions reported now) :
    now.slot.state = .loadedBound ↔ questions ≠ [] := by
  rw [Slot.state_eq_loadedBound_iff]
  cases h with
  | nothing unbound program => simp [unbound]
  | question bound program answered => simp [Slot.context?_withEntry, bound]

end Operation.Happens

namespace Engine

open EngineAct

variable (e : Engine τ ε) {s : EngineState τ ε} {context : BoundContext ε}

/-- Where no context can be had none is bound, and the program is as it was. -/
theorem ensureBound_none (h : (e.ensureBound.run s).1 = none) :
    (e.ensureBound.run s).2.slot.context? = none ∧
      (e.ensureBound.run s).2.program = s.program := by
  rcases e.ensureBound_cases s with ⟨hslot, -, hrun⟩ | ⟨image, context, -, -, hrun⟩ |
    ⟨image, ready, -, hslot, hprogram, -, -, hrun⟩
  · rw [hrun, hslot]
    exact ⟨rfl, rfl⟩
  · rw [hrun] at h
    cases h
  · rw [hrun] at h ⊢
    rcases e.bindImage_cases s.program.address image ready with
      ⟨-, w, hbind⟩ | ⟨-, -, ⟨w, entry, hbind⟩ | ⟨w, hbind⟩⟩
    · rw [hbind]
      exact ⟨congrArg Slot.context? hslot, hprogram⟩
    · rw [hbind] at h
      cases h
    · rw [hbind]
      exact ⟨congrArg Slot.context? hslot, hprogram⟩

/-- Making sure of a context asks nothing. -/
theorem questions_ensureBound (s : EngineState τ ε) : (Watched.ensureBound e).questions s = [] := by
  have hbind : ∀ address image (ready : EngineState τ ε),
      ((Watched.bindImage e address image).moments ready).filter Moment.isQuestion = [] := by
    intro address image ready
    rcases e.bindImage_cases address image ready with ⟨hmoments, -⟩ | ⟨-, hmoments, -⟩
    · rw [hmoments, List.filter_nil]
    · rw [hmoments]
      rfl
  rw [Watched.questions]
  rcases e.ensureBound_cases s with ⟨-, hmoments, -⟩ | ⟨image, context, -, hmoments, -⟩ |
    ⟨image, ready, -, -, -, -, hmoments, -⟩
  · rw [hmoments, List.filter_nil]
  · rw [hmoments, List.filter_nil]
  · rw [hmoments, hbind]

/-- An operation that makes sure of a context, and has a question for it if there is one, happens as it
should if that is all that others learn of it and the answer is all that it goes by. -/
theorem happens_of_ensureBound {op : Operation τ ε}
    {told : Watched τ ε (Except ScriptFault (Option MethodRunResult))}
    (hmoments : told.moments s = (Watched.ensureBound e).moments s ++
      (e.ensureBound.run s).1.toList.map fun context =>
        ⟨.asked op.request context, (e.ensureBound.run s).2⟩)
    (hnone : (e.ensureBound.run s).1 = none →
      told.act.run s = (.ok none, (e.ensureBound.run s).2))
    (hsome : ∀ {context ready answer entry world}, (e.ensureBound.run s).1 = some context →
      (e.ensureBound.run s).2 = ready →
      (op.call context.entry).run ready.world = ((answer, entry), world) →
      told.act.run s =
        (answer.map fun result => some (op.report ready.program result),
          { ready with
            world := world
            slot := ready.slot.withEntry entry
            program := op.keep ready.program answer world.host.now })) :
    op.Happens s (told.questions s) (told.act.run s).1 (told.act.run s).2 := by
  have hquestions : told.questions s = (e.ensureBound.run s).1.toList.map fun context =>
      ⟨.asked op.request context, (e.ensureBound.run s).2⟩ := by
    have hfirst := e.questions_ensureBound s
    rw [Watched.questions] at hfirst ⊢
    rw [hmoments, List.filter_append, hfirst, List.nil_append]
    cases (e.ensureBound.run s).1 <;> rfl
  rw [hquestions]
  cases h : (e.ensureBound.run s).1 with
  | none =>
      obtain ⟨hunbound, hprogram⟩ := e.ensureBound_none h
      rw [hnone h]
      exact .nothing hunbound hprogram
  | some context =>
      obtain ⟨-, hprogram, hbound⟩ := e.ensureBound_some h
      rw [hsome h rfl rfl, hprogram]
      exact .question hbound hprogram rfl

/-- The time of an activation is kept with the program. -/
theorem run_keepActivation (activated : Bool) (result : MethodRunResult) (s : EngineState τ ε) :
    (do
        if activated then
          let now ← inWorld Act.now
          editProgram fun p => { p with activationTime := some now }
        pure (.ok (some { result with returnValue := activated })) :
      EngineAct τ ε (Except ScriptFault (Option MethodRunResult))).run s =
        (.ok (some { result with returnValue := activated }), { s with
          program := if activated then { s.program with activationTime := some s.world.host.now }
            else s.program }) := by
  cases activated <;> rfl

/-- After its question `setup` looks at the program, and keeps the time if it activates it. -/
theorem setup_asked (h : (e.ensureBound.run s).1 = some context) {ready : EngineState τ ε}
    (hready : (e.ensureBound.run s).2 = ready) {answer : Except ScriptFault MethodRunResult}
    {entry : ε} {world : World τ}
    (hanswer : (e.loader.capabilities.setup context.entry).run ready.world =
      ((answer, entry), world)) :
    e.setup.run s =
      (answer.map fun result => some (Operation.forced ready.program result),
        { ready with
          world := world
          slot := ready.slot.withEntry entry
          program := (Operation.setup e.loader.capabilities).keep ready.program answer
            world.host.now }) := by
  rw [setup, run_bind, h, hready]
  dsimp only
  rw [run_bind, run_ask, hanswer]
  cases answer with
  | error fault => rfl
  | ok result => exact run_keepActivation (result.returnValue || ready.program.willRun) result _

theorem run_asked {options : String} (h : (e.ensureBound.run s).1 = some context)
    {ready : EngineState τ ε} (hready : (e.ensureBound.run s).2 = ready)
    {answer : Except ScriptFault MethodRunResult} {entry : ε} {world : World τ}
    (hanswer : (e.loader.capabilities.run context.entry options).run ready.world =
      ((answer, entry), world)) :
    (e.run options).run s =
      (answer.map some,
        { ready with
          world := world
          slot := ready.slot.withEntry entry
          program := { ready.program with triggerTime := some world.host.now } }) := by
  rw [run, run_bind, h, hready]
  dsimp only
  rw [run_bind, run_ask, hanswer]
  rfl

theorem happens_setup (s : EngineState τ ε) :
    (Operation.setup e.loader.capabilities).Happens s ((Watched.setup e).questions s)
      ((Watched.setup e).act.run s).1 ((Watched.setup e).act.run s).2 := by
  apply e.happens_of_ensureBound (Watched.moments_setup e s)
  · rw [Watched.act_setup]
    exact setup_of_none
  · rw [Watched.act_setup]
    exact fun hcontext hready hanswer => e.setup_asked hcontext hready hanswer

theorem happens_run (options : String) (s : EngineState τ ε) :
    (Operation.run e.loader.capabilities options).Happens s ((Watched.run e options).questions s)
      ((Watched.run e options).act.run s).1 ((Watched.run e options).act.run s).2 := by
  apply e.happens_of_ensureBound (Watched.moments_run e options s)
  · rw [Watched.act_run]
    exact run_of_none
  · rw [Watched.act_run]
    exact fun hcontext hready hanswer => e.run_asked hcontext hready hanswer

end Engine

/-- The account that an operation gives of itself is true: it is empty only if nothing was asked, and
then nothing is bound. -/
structure Operation.IsToldBy (op : Operation τ ε)
    (told : Watched τ ε (Except ScriptFault (Option MethodRunResult))) (s : EngineState τ ε) :
    Prop where
  happens : op.Happens s (told.questions s) (told.act.run s).1 (told.act.run s).2
  none_iff : (told.act.run s).1 = .ok none ↔ told.questions s = []
  bound_iff : (told.act.run s).2.slot.state = .loadedBound ↔ told.questions s ≠ []

theorem Operation.Happens.isToldBy {op : Operation τ ε}
    {told : Watched τ ε (Except ScriptFault (Option MethodRunResult))} {s : EngineState τ ε}
    (h : op.Happens s (told.questions s) (told.act.run s).1 (told.act.run s).2) :
    op.IsToldBy told s :=
  ⟨h, h.none_iff, h.bound_iff⟩

/-- What `setup` and `run` report is what happened, whatever is loaded, bound and live, and however the
loader and the entries behave.  A bound entry is asked once, and asked nothing else; its answer is
reported, and a fault as it came.  The outcome of `setup` is a yes for a program that is to run anyway,
and the program then has the time of its activation; it is left alone when the outcome is a no, and by
a fault.  The program has the time of every `run` that was asked.  The report is empty exactly when
no entry was asked, in which case none is bound and the program is as it was. -/
theorem Engine.reports_are_what_happened (e : Engine τ ε) :
    ((Watched.setup e).act = e.setup ∧
      ∀ s, (Operation.setup e.loader.capabilities).IsToldBy (Watched.setup e) s) ∧
    ∀ options, (Watched.run e options).act = e.run options ∧
      ∀ s, (Operation.run e.loader.capabilities options).IsToldBy (Watched.run e options) s := by
  exact ⟨⟨Watched.act_setup e, fun s => (e.happens_setup s).isToldBy⟩,
    fun options => ⟨Watched.act_run e options, fun s => (e.happens_run options s).isToldBy⟩⟩

end Automation
