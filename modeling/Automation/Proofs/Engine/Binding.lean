import Automation.Proofs.Engine.Watched

/-
What becomes of the context of an engine.

Three steps touch a context: giving up an outdated one, binding an image, and tearing down.  Each
of them has a few outcomes, told here in full as far as the registry and the slot are concerned;
the world may change in any way that compilers, loaders and entries like.  All else that an engine
does leaves its context alone.
-/

namespace Automation.Engine

open EngineAct

variable {τ ε α : Type} (e : Engine τ ε)

/-- An outdated context is one whose generation is not live, or whose entry is not usable.  The
first is only forgotten; the second is retired as well. -/
theorem dropOutdated_cases (address : String) (image : ArtifactImage) (context : BoundContext ε)
    (s : EngineState τ ε) :
    (s.registry.isLive address context.generation = true ∧
        (e.dropOutdated address image context).run s = (some context, s)) ∨
      (s.registry.isLive address context.generation = false ∧ ∃ w,
        (e.dropOutdated address image context).run s =
          (none, { s with world := w, slot := .loaded image none })) ∨
      (s.registry.isLive address context.generation = true ∧ ∃ w,
        (e.dropOutdated address image context).run s =
          (none, { s with
            world := w
            registry := s.registry.retired address
            slot := .loaded image none })) := by
  cases hlive : s.registry.isLive address context.generation with
  | false =>
      refine Or.inr (Or.inl ⟨rfl, ?_⟩)
      simp only [dropOutdated, run_bind, run_isLive, hlive]
      exact ⟨_, rfl⟩
  | true =>
      have hrun : (e.dropOutdated address image context).run s =
          (if !e.loader.capabilities.isUsable context.entry s.world then
            (do
              closeContext address context.generation
              setSlot (.loaded image none)
              inWorld (e.loader.capabilities.release context.entry)
              pure none : EngineAct τ ε (Option (BoundContext ε))).run s
          else (some context, s)) := by
        simp only [dropOutdated, run_bind, run_isLive, hlive]
        change ((if (!e.loader.capabilities.isUsable context.entry s.world) = true then _
          else pure (some context) : EngineAct τ ε _).run s) = _
        split <;> rfl
      rw [hrun]
      split
      · refine Or.inr (Or.inr ⟨rfl, ?_⟩)
        rw [run_bind, run_closeContext, Registry.closeContext_run, if_pos hlive]
        exact ⟨_, rfl⟩
      · exact Or.inl ⟨rfl, rfl⟩

/-- Binding an image needs an address without a live generation.  Its generation is the next one,
live in the end when the entry could be made, and retired again when not. -/
theorem bindImage_cases (address : String) (image : ArtifactImage) (s : EngineState τ ε) :
    ((Watched.bindImage e address image).moments s = [] ∧ ∃ w,
        (e.bindImage address image).run s = (none, { s with world := w })) ∨
      (s.registry.liveGeneration address = none ∧
        (Watched.bindImage e address image).moments s =
          [⟨.opened address (s.registry.lastGeneration address + 1), s⟩] ∧
        ((∃ w entry, (e.bindImage address image).run s =
            (some ⟨s.registry.lastGeneration address + 1, entry⟩, { s with
              world := w
              registry := s.registry.opened address
              slot := .loaded image
                (some ⟨s.registry.lastGeneration address + 1, entry⟩) })) ∨
          ∃ w, (e.bindImage address image).run s =
            (none, { s with
              world := w
              registry := (s.registry.opened address).retired address }))) := by
  rcases Registry.openContext_cases s.registry address s.world.host.files with
    ⟨hlive, hopen⟩ | ⟨refusal, hopen⟩
  · refine Or.inr ⟨hlive, ?_, ?_⟩
    · simp only [Watched.bindImage, Watched.moments_bind, Watched.opening, run_openContext, hopen,
        Watched.moments_quietly]
      rw [List.append_right_eq_self]
      generalize ((Watched.quietly _).act.run _).1 = made
      cases made <;> rfl
    · rw [bindImage, run_bind, run_openContext, hopen]
      simp only [run_bind, run_inWorld]
      generalize StateT.run (e.loader.bindEntry _) _ = made
      obtain ⟨_ | entry, w⟩ := made
      · have hopened : (s.registry.opened address).isLive address
            (s.registry.lastGeneration address + 1) = true := by
          simp [Registry.isLive]
        refine Or.inr ?_
        simp only [run_bind, run_closeContext, Registry.closeContext_run, if_pos hopened]
        exact ⟨_, rfl⟩
      · exact Or.inl ⟨w, entry, rfl⟩
  · refine Or.inl ⟨?_, ?_⟩
    · simp [Watched.bindImage, Watched.opening, run_openContext, hopen]
    · rw [bindImage, run_bind, run_openContext, hopen]
      exact ⟨_, rfl⟩

/-- Tearing down empties the slot, and retires the generation of the context if it is live. -/
theorem teardown_run (s : EngineState τ ε) : ∃ w, e.teardown.run s = ((), { s with
    world := w
    slot := .unloaded
    registry :=
      match s.slot.generation? with
      | none => s.registry
      | some generation =>
          if s.registry.isLive s.program.address generation then
            s.registry.retired s.program.address
          else s.registry }) := by
  simp only [teardown, run_bind, run_slot, run_setSlot, Slot.generation?]
  cases s.slot.context? with
  | none => exact ⟨_, rfl⟩
  | some context =>
      simp only [run_bind, run_address, run_closeContext, Registry.closeContext_run, run_inWorld,
        Option.map_some]
      exact ⟨_, rfl⟩

/-- A context that has just been bound is live, and it is the one in the slot. -/
theorem bindImage_some {address : String} {image : ArtifactImage} {s : EngineState τ ε}
    {context : BoundContext ε} (h : ((e.bindImage address image).run s).1 = some context) :
    ((e.bindImage address image).run s).2.registry.isLive address context.generation = true ∧
      ((e.bindImage address image).run s).2.program = s.program ∧
        ((e.bindImage address image).run s).2.slot.context? = some context := by
  rcases e.bindImage_cases address image s with ⟨_, w, hrun⟩ | ⟨_, _, ⟨w, entry, hrun⟩ | ⟨w, hrun⟩⟩
  · simp [hrun] at h
  · rw [hrun] at h ⊢
    obtain rfl := Option.some.inj h
    exact ⟨by simp [Registry.isLive], rfl, rfl⟩
  · simp [hrun] at h

/-- A context handed out for an invocation is live, and it is the one in the slot. -/
theorem ensureBound_some {s : EngineState τ ε} {context : BoundContext ε}
    (h : (e.ensureBound.run s).1 = some context) :
    (e.ensureBound.run s).2.registry.isLive s.program.address context.generation = true ∧
      (e.ensureBound.run s).2.program = s.program ∧
        (e.ensureBound.run s).2.slot.context? = some context := by
  simp only [ensureBound, run_bind, run_address, run_slot] at h ⊢
  split at h
  · cases h
  · exact e.bindImage_some h
  · next image bound hslot =>
    rw [run_bind] at h ⊢
    rcases e.dropOutdated_cases s.program.address image bound s with
      ⟨hlive, hrun⟩ | ⟨_, w, hrun⟩ | ⟨_, w, hrun⟩
    · rw [hrun] at h ⊢
      obtain rfl : bound = context := Option.some.inj h
      exact ⟨hlive, rfl, congrArg Slot.context? hslot⟩
    · rw [hrun] at h ⊢
      exact e.bindImage_some h
    · rw [hrun] at h ⊢
      exact e.bindImage_some h

/-- An engine that has been disposed of is not bound. -/
theorem generation?_dispose (s : EngineState τ ε) :
    (e.dispose.run s).2.slot.generation? = none := by
  have hunload : (e.unload.run s).2.slot = .unloaded := by
    simp only [unload, run_bind]
    obtain ⟨w, hrun⟩ := e.teardown_run
      ((editProgram fun p => { p with activationTime := none, triggerTime := none } :
        EngineAct τ ε Unit).run (e.reset.run s).2).2
    exact congrArg (fun result => result.2.slot) hrun
  cases hslot : s.slot with
  | unloaded =>
      have hrun : e.dispose.run s = ((), s) := by
        rw [dispose, run_bind, run_slot, hslot]
        rfl
      rw [hrun, hslot]
      rfl
  | loaded image context =>
      have hrun : e.dispose.run s = e.unload.run s := by
        rw [dispose, run_bind, run_slot, hslot]
        rfl
      rw [hrun, hunload]
      rfl

end Automation.Engine
