import Automation.Proofs.Engine.Liveness

/-
How units are invoked.

Invoking a unit is to make sure of a context, which may mean to bind the loaded image, and then to ask
its entry once.  What each part does is told here by cases, together with its moments.
-/

namespace Automation

namespace Slot

variable {ε : Type}

/-- The image that is loaded, if there is one. -/
def image? : Slot ε → Option ArtifactImage
  | unloaded => none
  | loaded image _ => some image

@[simp] theorem image?_unloaded : (unloaded : Slot ε).image? = none := rfl

@[simp] theorem image?_loaded (image : ArtifactImage) (context : Option (BoundContext ε)) :
    (loaded image context).image? = some image := rfl

@[simp] theorem image?_withEntry (entry : ε) (slot : Slot ε) :
    (slot.withEntry entry).image? = slot.image? := by
  cases slot with
  | unloaded => rfl
  | loaded image context => cases context <;> rfl

end Slot

namespace Engine

open EngineAct

variable {τ ε : Type} (e : Engine τ ε)

/-- The request to bind that follows when a context has been opened. -/
def request? (moment : Moment τ ε) : Option BindRequest :=
  match moment.deed with
  | .asked .. => none
  | .opened address generation =>
      let config := e.environment.config
      moment.state.slot.image?.map fun image =>
        ⟨address, generation, image, config.entryType, config.host.endpoint⟩

theorem entryType_of_request? {moment : Moment τ ε} {request : BindRequest}
    (h : e.request? moment = some request) :
    request.entryType = e.environment.config.entryType := by
  rw [request?] at h
  split at h
  · cases h
  · obtain ⟨image, -, rfl⟩ := Option.map_eq_some_iff.mp h
    rfl

/-- To bind an image is to open a context, if the registry allows that, and then to have the loader
bind an entry.  Beyond the host nothing but that happens. -/
theorem bindImage_outcomes {address : String} {image : ArtifactImage} {s : EngineState τ ε}
    (hslot : s.slot.image? = some image) :
    ((Watched.bindImage e address image).moments s = [] ∧
        ((e.bindImage address image).run s).1 = none ∧
        ((e.bindImage address image).run s).2.slot = s.slot ∧
        ((e.bindImage address image).run s).2.world.outside = s.world.outside) ∨
      ∃ generation request bound,
        (Watched.bindImage e address image).moments s = [⟨.opened address generation, s⟩] ∧
        e.request? ⟨.opened address generation, s⟩ = some request ∧
        (e.loader.bindEntry request).run
          ((openContext address : EngineAct τ ε _).run s).2.world = bound ∧
        ((e.bindImage address image).run s).2.world.outside = bound.2.outside ∧
        ((∃ problem, bound.1 = .error problem ∧
            ((e.bindImage address image).run s).1 = none ∧
            ((e.bindImage address image).run s).2.slot = s.slot) ∨
          ∃ entry, bound.1 = .ok entry ∧
            ((e.bindImage address image).run s).1 = some ⟨generation, entry⟩ ∧
            ((e.bindImage address image).run s).2.slot =
              .loaded image (some ⟨generation, entry⟩)) := by
  simp only [Watched.bindImage, bindImage, run_bind, Watched.moments_bind, Watched.opening]
  cases hopened : ((openContext address : EngineAct τ ε _).run s).1 with
  | error refusal => exact Or.inl ⟨rfl, rfl, rfl, rfl⟩
  | ok generation =>
      let config := e.environment.config
      let request : BindRequest :=
        ⟨address, generation, image, config.entryType, config.host.endpoint⟩
      refine Or.inr ⟨generation, request, _, ?_, ?_, rfl, ?_⟩
      · rw [List.append_right_eq_self]
        simp only [Watched.moments_bind, Watched.moments_quietly, List.nil_append]
        generalize ((Watched.quietly _).act.run _).1 = made
        cases made <;> rfl
      · rw [request?, hslot]
        rfl
      · simp only [run_bind, run_inWorld]
        generalize (e.loader.bindEntry _).run _ = bound
        obtain ⟨_ | entry, w⟩ := bound
        · exact ⟨rfl, Or.inl ⟨_, rfl, rfl, rfl⟩⟩
        · exact ⟨rfl, Or.inr ⟨entry, rfl, rfl, rfl⟩⟩

/-- To make sure of a context is to do nothing, or to bind the image that is loaded.  A context that is
no good any more is given up first. -/
theorem ensureBound_cases (s : EngineState τ ε) :
    (s.slot = .unloaded ∧ (Watched.ensureBound e).moments s = [] ∧
        e.ensureBound.run s = (none, s)) ∨
      (∃ image context, s.slot = .loaded image (some context) ∧
        (Watched.ensureBound e).moments s = [] ∧ e.ensureBound.run s = (some context, s)) ∨
      ∃ image ready, s.slot.image? = some image ∧ ready.slot = .loaded image none ∧
        ready.program = s.program ∧
        (ready = s ∨ ∃ context, (e.dropOutdated s.program.address image context).run s =
          (none, ready)) ∧
        (Watched.ensureBound e).moments s =
          (Watched.bindImage e s.program.address image).moments ready ∧
        e.ensureBound.run s = (e.bindImage s.program.address image).run ready := by
  simp only [Watched.ensureBound, ensureBound, run_bind, Watched.moments_bind,
    Watched.moments_quietly, List.nil_append, Watched.act_quietly, run_address, run_slot]
  cases hslot : s.slot with
  | unloaded => exact Or.inl ⟨rfl, rfl, rfl⟩
  | loaded image context =>
      refine Or.inr ?_
      cases context with
      | none => exact Or.inr ⟨image, s, rfl, hslot, rfl, Or.inl rfl, rfl, rfl⟩
      | some context =>
          simp only [run_bind, Watched.moments_bind, Watched.moments_quietly, List.nil_append,
            Watched.act_quietly]
          rcases e.dropOutdated_cases s.program.address image context s with
            ⟨-, hrun⟩ | ⟨-, w, hrun⟩ | ⟨-, w, hrun⟩
          · rw [hrun]
            exact Or.inl ⟨image, context, rfl, rfl, rfl⟩
          · rw [hrun]
            exact Or.inr ⟨image, { s with world := w, slot := .loaded image none },
              rfl, rfl, rfl, Or.inr ⟨context, hrun⟩, rfl, rfl⟩
          · rw [hrun]
            exact Or.inr ⟨image, { s with
              world := w
              registry := s.registry.retired s.program.address
              slot := .loaded image none }, rfl, rfl, rfl, Or.inr ⟨context, hrun⟩, rfl, rfl⟩

end Engine

namespace Watched

variable {τ ε : Type} {e : Engine τ ε} {s : EngineState τ ε} {moment : Moment τ ε}

/-- Invoking a unit is to make sure of a context, and then to ask its entry once. -/
theorem moments_setup (e : Engine τ ε) (s : EngineState τ ε) :
    (setup e).moments s = (ensureBound e).moments s ++
      (e.ensureBound.run s).1.toList.map fun context =>
        ⟨.asked .setup context, (e.ensureBound.run s).2⟩ := by
  rw [setup, moments_bind, act_ensureBound]
  congr 1
  cases (e.ensureBound.run s).1 with
  | none => rfl
  | some context =>
      simp only [moments_bind, moments_asking]
      generalize StateT.run (asking _ context _).act _ = answered
      obtain ⟨_ | result, now⟩ := answered
      · rfl
      · simp only [moments_bind, moments_quietly, List.nil_append]
        split <;> rfl

theorem moments_run (e : Engine τ ε) (options : String) (s : EngineState τ ε) :
    (run e options).moments s = (ensureBound e).moments s ++
      (e.ensureBound.run s).1.toList.map fun context =>
        ⟨.asked (.run options) context, (e.ensureBound.run s).2⟩ := by
  rw [run, moments_bind, act_ensureBound]
  congr 1
  cases (e.ensureBound.run s).1 <;> rfl

/-- A context is opened with the image that is to be bound in the slot. -/
theorem state_of_mem_bindImage {address : String} {image : ArtifactImage}
    (h : moment ∈ (bindImage e address image).moments s) : moment.state = s := by
  rcases e.bindImage_cases address image s with ⟨hnone, -⟩ | ⟨-, hone, -⟩
  · rw [hnone] at h
    cases h
  · rw [hone, List.mem_singleton] at h
    rw [h]

theorem state_of_mem_reset (h : moment ∈ (reset e).moments s) : moment.state = s := by
  rw [moments_reset] at h
  split at h
  · cases h
  · split at h
    · rw [List.mem_singleton.mp h]
    · cases h

end Watched

namespace Engine

open EngineAct

variable {τ ε : Type} {e : Engine τ ε} {s : EngineState τ ε} {context : BoundContext ε}

theorem run_ask {α : Type} (call : Act τ (α × ε)) (s : EngineState τ ε) :
    (ask call).run s = ((call.run s.world).1.1, { s with
      world := (call.run s.world).2
      slot := s.slot.withEntry (call.run s.world).1.2 }) := rfl

theorem setup_of_none (h : (e.ensureBound.run s).1 = none) :
    e.setup.run s = (.ok none, (e.ensureBound.run s).2) := by
  rw [setup, run_bind, h]
  rfl

/-- Keeping the time of an activation changes nothing but the program. -/
theorem run_activation (activated : Bool) (result : MethodRunResult) (s : EngineState τ ε) :
    ∃ p, (do
        if activated then
          let now ← inWorld Act.now
          editProgram fun p => { p with activationTime := some now }
        pure (.ok (some { result with returnValue := activated })) :
      EngineAct τ ε (Except ScriptFault (Option MethodRunResult))).run s =
        (.ok (some { result with returnValue := activated }), { s with program := p }) := by
  cases activated <;> exact ⟨_, rfl⟩

theorem setup_of_some (h : (e.ensureBound.run s).1 = some context) :
    (e.setup.run s).1 =
        ((e.loader.capabilities.setup context.entry).run
          (e.ensureBound.run s).2.world).1.1.map (fun result =>
            some { result with returnValue := result.returnValue || s.program.willRun }) ∧
      (e.setup.run s).2.slot = (e.ensureBound.run s).2.slot.withEntry
        ((e.loader.capabilities.setup context.entry).run (e.ensureBound.run s).2.world).1.2 := by
  obtain ⟨-, hprogram, -⟩ := e.ensureBound_some h
  rw [setup, run_bind, h]
  dsimp only
  rw [run_bind, run_ask]
  generalize StateT.run (e.loader.capabilities.setup context.entry) _ = asked
  obtain ⟨⟨_ | result, entry⟩, w⟩ := asked
  · exact ⟨rfl, rfl⟩
  · rw [← hprogram]
    obtain ⟨p, hrun⟩ := run_activation (result.returnValue ||
      (e.ensureBound.run s).2.program.willRun) result { (e.ensureBound.run s).2 with
        world := w
        slot := (e.ensureBound.run s).2.slot.withEntry entry }
    exact ⟨congrArg Prod.fst hrun, congrArg (fun run => run.2.slot) hrun⟩

theorem run_of_none {options : String} (h : (e.ensureBound.run s).1 = none) :
    (e.run options).run s = (.ok none, (e.ensureBound.run s).2) := by
  rw [run, run_bind, h]
  rfl

theorem run_of_some {options : String} (h : (e.ensureBound.run s).1 = some context) :
    ((e.run options).run s).1 =
        ((e.loader.capabilities.run context.entry options).run
          (e.ensureBound.run s).2.world).1.1.map some ∧
      ((e.run options).run s).2.slot = (e.ensureBound.run s).2.slot.withEntry
        ((e.loader.capabilities.run context.entry options).run
          (e.ensureBound.run s).2.world).1.2 := by
  rw [run, run_bind, h]
  exact ⟨rfl, rfl⟩

/-- A reset asks the bound entry, if it supports that. -/
theorem reset_cases (e : Engine τ ε) (s : EngineState τ ε) :
    ((Watched.reset e).moments s = [] ∧ e.reset.run s = (.ok (), s)) ∨
      ∃ context, s.slot.context? = some context ∧
        e.loader.capabilities.supportsReset context.entry s.world = true ∧
        (Watched.reset e).moments s = [⟨.asked .reset context, s⟩] ∧
        e.reset.run s = (ask (e.loader.capabilities.reset context.entry)).run s := by
  rw [Watched.moments_reset]
  cases hcontext : s.slot.context? with
  | none =>
      refine Or.inl ⟨rfl, ?_⟩
      simp only [reset, run_bind, run_slot, hcontext]
      rfl
  | some context =>
      have hrun : e.reset.run s =
          (if e.loader.capabilities.supportsReset context.entry s.world = true then
            ask (e.loader.capabilities.reset context.entry)
          else pure (.ok ()) : EngineAct τ ε _).run s := by
        simp only [reset, run_bind, run_slot, hcontext]
        rfl
      rw [hrun]
      by_cases hsupported : e.loader.capabilities.supportsReset context.entry s.world = true
      · rw [if_pos hsupported]
        exact Or.inr ⟨context, rfl, hsupported, if_pos hsupported, rfl⟩
      · rw [if_neg hsupported]
        exact Or.inl ⟨if_neg hsupported, rfl⟩

end Engine

end Automation
