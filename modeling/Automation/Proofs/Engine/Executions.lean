import Automation.Proofs.Engine.Answers
import Automation.Proofs.Loading.Firmness

/-
What is executed of a unit.

An operation is executed when the entry of a bound context is asked it.  `setup` and `run` execute one
operation each, or none when no context is to be had.  A context that an engine has bound itself is live
and usable when it is asked, and after a `setup` that succeeded it still is: the `run` that follows asks
the same context again.
-/

namespace Automation

variable {τ ε α β : Type}

/-- An operation that was executed, and what the unit answered. -/
structure Executed where
  request : Request
  answer : Except ScriptFault MethodRunResult

/-- The operation that is executed at a moment, if one is.  A unit that is reset executes nothing of its
program. -/
def Moment.executed? (entries : Capabilities τ ε) (moment : Moment τ ε) : Option Executed :=
  match moment.deed with
  | .asked .setup context =>
      some ⟨.setup, ((entries.setup context.entry).run moment.state.world).1.1⟩
  | .asked (.run options) context =>
      some ⟨.run options, ((entries.run context.entry options).run moment.state.world).1.1⟩
  | _ => none

/-- The entry that is asked belongs to the live generation of its address, and is usable. -/
def Moment.IsSound (entries : Capabilities τ ε) (moment : Moment τ ε) : Prop :=
  ∃ request context, moment.deed = .asked request context ∧
    moment.state.registry.isLive moment.state.program.address context.generation = true ∧
    entries.isUsable context.entry moment.state.world = true

theorem Moment.executed?_eq_none {entries : Capabilities τ ε} {moment : Moment τ ε}
    (h : moment.isQuestion = false) : moment.executed? entries = none := by
  obtain ⟨deed, state⟩ := moment
  cases deed with
  | opened address generation => rfl
  | asked request context => cases h

namespace Watched

/-- The operations that are executed in an act, in order. -/
def executed (entries : Capabilities τ ε) (told : Watched τ ε α) (s : EngineState τ ε) :
    List Executed :=
  (told.moments s).filterMap (Moment.executed? entries)

variable (entries : Capabilities τ ε) (s : EngineState τ ε)

theorem executed_congr {told : Watched τ ε α} {other : Watched τ ε β} {now : EngineState τ ε}
    (h : told.moments s = other.moments now) :
    told.executed entries s = other.executed entries now := by
  rw [executed, h]
  rfl

/-- Only questions execute something. -/
theorem executed_eq_questions (told : Watched τ ε α) :
    told.executed entries s = (told.questions s).filterMap (Moment.executed? entries) := by
  rw [executed, questions]
  induction told.moments s with
  | nil => rfl
  | cons moment rest ih =>
      cases hquestion : moment.isQuestion with
      | true => rw [List.filter_cons_of_pos hquestion, List.filterMap_cons, List.filterMap_cons, ih]
      | false =>
          rw [List.filter_cons_of_neg (by simp [hquestion]),
            List.filterMap_cons_none (Moment.executed?_eq_none hquestion), ih]

/-- The act makes sure of a context, and asks it once if there is one. -/
def Invokes (told : Watched τ ε α) (e : Engine τ ε) (request : Request) (s : EngineState τ ε) : Prop :=
  told.moments s = (ensureBound e).moments s ++ (e.ensureBound.run s).1.toList.map fun context =>
    ⟨.asked request context, (e.ensureBound.run s).2⟩

/-- A unit that is given up executes nothing. -/
theorem executed_dispose (e : Engine τ ε) : (dispose e).executed entries s = [] := by
  rw [executed, moments_dispose, moments_reset]
  cases s.slot.context? with
  | none => rfl
  | some context =>
      dsimp only
      split <;> rfl

end Watched

namespace Operation

variable {op : Operation τ ε} {entries : Capabilities τ ε} {s now : EngineState τ ε}
  {told : Watched τ ε (Except ScriptFault (Option MethodRunResult))}

/-- Whoever asks the question of an operation executes it. -/
def Executes (op : Operation τ ε) (entries : Capabilities τ ε) : Prop :=
  ∀ context (s : EngineState τ ε), Moment.executed? entries ⟨.asked op.request context, s⟩ =
    some ⟨op.request, ((op.call context.entry).run s.world).1.1⟩

theorem executes_setup (entries : Capabilities τ ε) : (Operation.setup entries).Executes entries :=
  fun _ _ => rfl

theorem executes_run (entries : Capabilities τ ε) (options : String) :
    (Operation.run entries options).Executes entries :=
  fun _ _ => rfl

/-- To keep the time of an activation leaves the address alone. -/
theorem address_keep_setup (p : ProgramBlock) (answer : Except ScriptFault MethodRunResult)
    (time : Instant) : ((Operation.setup entries).keep p answer time).address = p.address := by
  cases answer with
  | error fault => rfl
  | ok result =>
      dsimp only [Operation.setup]
      split <;> rfl

/-- An operation executes nothing and says so, or it is executed and its answer is reported. -/
theorem IsToldBy.cases (h : op.IsToldBy told s) (hop : op.Executes entries) :
    (told.executed entries s = [] ∧ (told.act.run s).1 = .ok none) ∨
      ∃ answer, told.executed entries s = [⟨op.request, answer⟩] ∧
        (told.act.run s).1 = answer.map fun result => some (op.report s.program result) := by
  have hhappens := h.happens
  rw [Watched.executed_eq_questions]
  generalize told.questions s = questions at hhappens ⊢
  generalize (told.act.run s).1 = reported at hhappens ⊢
  generalize (told.act.run s).2 = now at hhappens
  cases hhappens with
  | nothing unbound program => exact Or.inl ⟨rfl, rfl⟩
  | @question context ready answer entry world bound program answered =>
      refine Or.inr ⟨answer, ?_, rfl⟩
      rw [List.filterMap_cons_some (hop context ready), List.filterMap_nil, answered]

end Operation

/-- A slot with a context has an image as well. -/
theorem Slot.exists_of_context? {slot : Slot ε} {context : BoundContext ε}
    (h : slot.context? = some context) : ∃ image, slot = .loaded image (some context) := by
  cases slot with
  | unloaded => cases h
  | loaded image bound => exact ⟨image, congrArg (loaded image) h⟩

namespace Engine

open EngineAct

variable {e : Engine τ ε} {s : EngineState τ ε} {context : BoundContext ε}

/-- The context is bound and live, and its entry is usable whatever happens in the world. -/
structure Serves (e : Engine τ ε) (s : EngineState τ ε) (context : BoundContext ε) : Prop where
  bound : s.slot.context? = some context
  live : s.registry.isLive s.program.address context.generation = true
  usable : ∀ w, e.loader.capabilities.isUsable context.entry w = true

/-- A context that serves is the one to invoke, and no other one is opened. -/
theorem Serves.ensureBound (h : e.Serves s context) :
    e.ensureBound.run s = (some context, s) ∧ (Watched.ensureBound e).moments s = [] := by
  obtain ⟨image, hslot⟩ := Slot.exists_of_context? h.bound
  have hkept : (e.dropOutdated s.program.address image context).run s = (some context, s) := by
    simp only [dropOutdated, run_bind, run_isLive, h.live]
    change ((if (!e.loader.capabilities.isUsable context.entry s.world) = true then _
      else pure (some context) : EngineAct τ ε _).run s) = _
    rw [h.usable]
    rfl
  simp only [Engine.ensureBound, Watched.ensureBound, run_bind, Watched.moments_bind,
    Watched.moments_quietly, Watched.act_quietly, run_address, run_slot, hslot, hkept]
  exact ⟨rfl, rfl⟩

/-- Whatever is had after that is the same context. -/
theorem Serves.of_ensureBound (h : e.Serves s context) {found : BoundContext ε}
    (hfound : (e.ensureBound.run s).1 = some found) : e.Serves (e.ensureBound.run s).2 found := by
  rw [h.ensureBound.1] at hfound ⊢
  obtain rfl := Option.some.inj hfound
  exact h

/-- Where nothing is bound, to make sure of a context is to bind what is loaded, if anything is. -/
theorem ensureBound_of_unbound (hunbound : s.slot.context? = none) :
    ((Watched.ensureBound e).moments s = [] ∧ e.ensureBound.run s = (none, s)) ∨
      ∃ image, s.slot = .loaded image none ∧
        (Watched.ensureBound e).moments s =
          (Watched.bindImage e s.program.address image).moments s ∧
        e.ensureBound.run s = (e.bindImage s.program.address image).run s := by
  simp only [Watched.ensureBound, Engine.ensureBound, run_bind, Watched.moments_bind,
    Watched.moments_quietly, List.nil_append, Watched.act_quietly, run_address, run_slot]
  cases hslot : s.slot with
  | unloaded => exact Or.inl ⟨rfl, rfl⟩
  | loaded image bound =>
      rw [hslot] at hunbound
      obtain rfl : bound = none := hunbound
      exact Or.inr ⟨image, rfl, rfl, rfl⟩

/-- A context that an engine has bound itself has an entry of its loader. -/
theorem firm_of_ensureBound (hfirm : e.loader.BindsFirm) (hunbound : s.slot.context? = none)
    (h : (e.ensureBound.run s).1 = some context) : e.loader.capabilities.Firm context.entry := by
  rcases ensureBound_of_unbound (e := e) hunbound with
    ⟨-, hrun⟩ | ⟨image, hslot, -, hrun⟩
  · rw [hrun] at h
    cases h
  · rw [hrun] at h
    have hloaded : s.slot.image? = some image := by rw [hslot]; rfl
    rcases @bindImage_outcomes _ _ e s.program.address image s hloaded with ⟨-, hnone, -⟩ |
        ⟨generation, request, bound, -, -, hbound, -, ⟨-, -, hnone, -⟩ | ⟨entry, hentry, hsome, -⟩⟩
    · rw [hnone] at h
      cases h
    · rw [hnone] at h
      cases h
    · obtain rfl := Option.some.inj (hsome.symm.trans h)
      exact hfirm.firm (hbound.trans (Prod.ext hentry rfl))

/-- When a context is had where none was bound, it serves. -/
theorem serves_ensureBound (hfirm : e.loader.BindsFirm) (hunbound : s.slot.context? = none)
    (h : (e.ensureBound.run s).1 = some context) : e.Serves (e.ensureBound.run s).2 context := by
  obtain ⟨hlive, hprogram, hbound⟩ := e.ensureBound_some h
  refine ⟨hbound, ?_, (firm_of_ensureBound hfirm hunbound h).usable⟩
  rw [hprogram]
  exact hlive

/-- After a `setup` that succeeded there is a context that serves. -/
theorem exists_serves_setup (hfirm : e.loader.BindsFirm) (hunbound : s.slot.context? = none)
    {result : MethodRunResult} (h : (e.setup.run s).1 = .ok (some result)) :
    ∃ context, e.Serves (e.setup.run s).2 context := by
  cases hbound : (e.ensureBound.run s).1 with
  | none =>
      rw [setup_of_none hbound] at h
      cases h
  | some context =>
      have hready := serves_ensureBound hfirm hunbound hbound
      have hentry := firm_of_ensureBound hfirm hunbound hbound
      cases hasked : (e.loader.capabilities.setup context.entry).run
          (e.ensureBound.run s).2.world with
      | mk answered world =>
          obtain ⟨answer, entry⟩ := answered
          rw [e.setup_asked hbound rfl hasked] at h ⊢
          cases answer with
          | error fault => cases h
          | ok given =>
              refine ⟨{ context with entry := entry }, ?_, ?_, hentry.setup hasked⟩
              · rw [Slot.context?_withEntry, hready.bound]
                rfl
              · rw [Operation.address_keep_setup]
                exact hready.live

theorem invokes_setup (e : Engine τ ε) (s : EngineState τ ε) :
    (Watched.setup e).Invokes e .setup s :=
  Watched.moments_setup e s

theorem invokes_run (e : Engine τ ε) (options : String) (s : EngineState τ ε) :
    (Watched.run e options).Invokes e (.run options) s :=
  Watched.moments_run e options s

end Engine

/-- As long as the context to invoke serves, all that is asked of it is sound. -/
theorem Watched.Invokes.isSound {e : Engine τ ε} {s : EngineState τ ε} {told : Watched τ ε α}
    {request : Request} (h : told.Invokes e request s)
    (hserves : ∀ {context}, (e.ensureBound.run s).1 = some context →
      e.Serves (e.ensureBound.run s).2 context) :
    ∀ moment ∈ told.moments s, moment.isQuestion = true →
      moment.IsSound e.loader.capabilities := by
  rw [h]
  intro moment hmoment hquestion
  rcases List.mem_append.mp hmoment with hmoment | hmoment
  · have hnone : moment ∈ (Watched.ensureBound e).questions s :=
      List.mem_filter.mpr ⟨hmoment, hquestion⟩
    rw [e.questions_ensureBound] at hnone
    cases hnone
  · obtain ⟨context, hcontext, rfl⟩ := List.mem_map.mp hmoment
    have hready := hserves (Option.mem_toList.mp hcontext)
    exact ⟨request, context, rfl, hready.live, hready.usable _⟩

end Automation
