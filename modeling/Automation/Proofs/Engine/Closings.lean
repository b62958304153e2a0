import Automation.Proofs.Engine.Executions
import Automation.Proofs.Engine.Tenure
import Automation.Proofs.Sharing.Releasing

/-
How the context of an engine is closed.

A claim is held for a live context that is bound.  A context that was opened and could not be bound is
closed at once, and one that is bound is closed when the engine is given up.  Either way the claim goes
with it, and nothing that happens to the entry afterwards brings it back.  An engine that is refused its
context leaves no claim that was not there before.
-/

namespace Automation

variable {τ ε α : Type}

namespace Watched

/-- The contexts that are opened in an act. -/
def openings (told : Watched τ ε α) (s : EngineState τ ε) : List (String × Generation) :=
  (told.moments s).filterMap Moment.opening?

/-- The claim was held before the act, which has opened nothing. -/
def Excuses (told : Watched τ ε α) (s : EngineState τ ε) : Prop :=
  told.openings s = [] ∧ s.registry.HoldsClaim s.program.address s.world.host.files

end Watched

section Invocations

variable {e : Engine τ ε} {s : EngineState τ ε} {told : Watched τ ε α} {request : Request}

/-- To ask a context opens none. -/
theorem Watched.Invokes.openings (h : told.Invokes e request s) :
    told.openings s = (Watched.ensureBound e).openings s := by
  rw [Watched.openings, h, List.filterMap_append, Watched.openings, List.append_right_eq_self]
  cases (e.ensureBound.run s).1 <;> rfl

theorem Watched.Invokes.excuses (h : told.Invokes e request s) :
    told.Excuses s = (Watched.ensureBound e).Excuses s := by
  rw [Watched.Excuses, h.openings, Watched.Excuses]

/-- An engine that gets a context where none was bound has opened it. -/
theorem Engine.openings_ensureBound_ne_nil {context : BoundContext ε}
    (hunbound : s.slot.context? = none) (h : (e.ensureBound.run s).1 = some context) :
    (Watched.ensureBound e).openings s ≠ [] := by
  rcases ensureBound_of_unbound (e := e) hunbound with ⟨-, hrun⟩ | ⟨image, -, hmoments, hrun⟩
  · rw [hrun] at h
    cases h
  · rw [hrun] at h
    rw [Watched.openings, hmoments]
    rcases e.bindImage_cases s.program.address image s with ⟨-, w, hnone⟩ | ⟨-, hone, -⟩
    · rw [hnone] at h
      cases h
    · rw [hone]
      exact List.cons_ne_nil _ _

/-- What is executed where nothing was bound is executed in a context that is opened for it. -/
theorem Watched.Invokes.opens (h : told.Invokes e request s) (hunbound : s.slot.context? = none)
    {entries : Capabilities τ ε} (hexecuted : told.executed entries s ≠ []) :
    told.openings s ≠ [] := by
  rw [h.openings]
  cases hbound : (e.ensureBound.run s).1 with
  | some context => exact Engine.openings_ensureBound_ne_nil hunbound hbound
  | none =>
      rw [Invokes, hbound, Option.toList_none, List.map_nil, List.append_nil] at h
      rw [executed_eq_questions, questions, h, ← questions, e.questions_ensureBound] at hexecuted
      exact absurd rfl hexecuted

end Invocations

/-- An engine has a live context, or no claim of its address is held without an excuse. -/
inductive EngineState.Settled (excused : Prop) (s : EngineState τ ε) : Prop where
  | bound {context : BoundContext ε} (slot : s.slot.context? = some context)
      (live : s.registry.isLive s.program.address context.generation = true)
  | unclaimed (slot : s.slot.context? = none)
      (claim : s.registry.HoldsClaim s.program.address s.world.host.files → excused)

/-- To edit the program makes no difference, as long as its address stays. -/
theorem EngineState.Settled.edit {excused : Prop} {s : EngineState τ ε} (h : s.Settled excused)
    {p : ProgramBlock} (hp : p.address = s.program.address) :
    EngineState.Settled excused { s with program := p } := by
  cases h with
  | bound slot live =>
      refine .bound slot ?_
      rw [hp]
      exact live
  | unclaimed slot claim =>
      refine .unclaimed slot ?_
      rw [hp]
      exact claim

namespace Engine

open EngineAct

variable {e : Engine τ ε} {s : EngineState τ ε} {context : BoundContext ε} {excused : Prop}

/-- A context that was opened is bound, or closed again. -/
theorem settled_bindImage {image : ArtifactImage} (hunbound : s.slot.context? = none) :
    ((e.bindImage s.program.address image).run s).2.Settled
      ((Watched.bindImage e s.program.address image).Excuses s) := by
  rcases s.registry.openContext_cases s.program.address s.world.host.files with
    ⟨-, hopen⟩ | ⟨refusal, hopen⟩
  · have hlive : (s.registry.opened s.program.address).isLive s.program.address
        (s.registry.lastGeneration s.program.address + 1) = true := by
      simp [Registry.isLive]
    rw [bindImage, run_bind, run_openContext, hopen]
    simp only [run_bind, run_inWorld]
    generalize StateT.run (e.loader.bindEntry _) _ = made
    obtain ⟨_ | entry, w⟩ := made
    -- The claim that came with the context goes again when there is no entry to bind.
    · simp only [run_bind, run_closeContext, Registry.closeContext_run, if_pos hlive]
      exact .unclaimed hunbound fun hholds =>
        absurd hholds (Registry.not_holdsClaim_closeContext hlive w.host.files)
    · exact .bound rfl hlive
  · have hmoments : (Watched.bindImage e s.program.address image).moments s = [] := by
      simp [Watched.bindImage, Watched.opening, run_openContext, hopen]
    rw [bindImage, run_bind, run_openContext, hopen]
    -- Nothing has been opened, so a claim that is held is an old one.
    refine .unclaimed hunbound fun hholds => ⟨?_, ?_⟩
    · rw [Watched.openings, hmoments]
      rfl
    · exact hholds.of_openContext_error (congrArg Prod.fst hopen)

theorem settled_ensureBound (hunbound : s.slot.context? = none) :
    (e.ensureBound.run s).2.Settled ((Watched.ensureBound e).Excuses s) := by
  rcases ensureBound_of_unbound hunbound with ⟨hmoments, hrun⟩ | ⟨image, -, hmoments, hrun⟩
  · rw [hrun, Watched.Excuses, Watched.openings, hmoments]
    exact .unclaimed hunbound fun hholds => ⟨rfl, hholds⟩
  · rw [hrun, Watched.Excuses, Watched.openings, hmoments]
    exact settled_bindImage hunbound

theorem Serves.settled (h : e.Serves s context) : s.Settled excused := .bound h.bound h.live

/-- An answer changes nothing about the context. -/
theorem settled_answered (h : s.Settled excused) (hbound : s.slot.context? = some context) (entry : ε)
    (w : World τ) {p : ProgramBlock} (hp : p.address = s.program.address) :
    EngineState.Settled excused
      { s with world := w, slot := s.slot.withEntry entry, program := p } := by
  cases h with
  | unclaimed slot claim => cases hbound.symm.trans slot
  | @bound context slot live =>
      have hslot : (s.slot.withEntry entry).context? = some { context with entry := entry } := by
        rw [Slot.context?_withEntry, slot]
        rfl
      refine .bound hslot ?_
      rw [hp]
      exact live

theorem settled_setup (h : (e.ensureBound.run s).2.Settled excused) :
    (e.setup.run s).2.Settled excused := by
  cases hbound : (e.ensureBound.run s).1 with
  | none =>
      rw [setup_of_none hbound]
      exact h
  | some context =>
      rw [e.setup_asked hbound rfl rfl]
      refine settled_answered h (e.ensureBound_some hbound).2.2 _ _ ?_
      exact Operation.address_keep_setup _ _ _

theorem settled_run {options : String} (h : (e.ensureBound.run s).2.Settled excused) :
    ((e.run options).run s).2.Settled excused := by
  cases hbound : (e.ensureBound.run s).1 with
  | none =>
      rw [run_of_none hbound]
      exact h
  | some context =>
      rw [e.run_asked hbound rfl rfl]
      exact settled_answered h (e.ensureBound_some hbound).2.2 _ _ rfl

theorem settled_reset (h : s.Settled excused) : (e.reset.run s).2.Settled excused := by
  rcases e.reset_cases s with ⟨-, hrun⟩ | ⟨context, hbound, -, -, hrun⟩
  · rw [hrun]
    exact h
  · rw [hrun, run_ask]
    exact settled_answered h hbound _ _ rfl

/-- To tear down gives up the claim. -/
theorem excused_of_teardown (hrelease : e.loader.capabilities.ReleaseThins) (h : s.Settled excused)
    (hholds : (e.teardown.run s).2.registry.HoldsClaim s.program.address
      (e.teardown.run s).2.world.host.files) : excused := by
  cases h with
  | unclaimed slot claim =>
      simp only [teardown, run_bind, run_slot, run_setSlot, slot] at hholds
      exact claim hholds
  | @bound context slot live =>
      simp only [teardown, run_bind, run_slot, run_setSlot, slot, run_address, run_closeContext,
        Registry.closeContext_run, if_pos live, run_inWorld] at hholds
      exact absurd (hholds.of_thins (hrelease context.entry (s.world.withFiles _)))
        (Registry.not_holdsClaim_closeContext live s.world.host.files)

/-- An engine that is given up has no claim. -/
theorem excused_of_dispose (hrelease : e.loader.capabilities.ReleaseThins) (h : s.Settled excused)
    (hholds : (e.dispose.run s).2.registry.HoldsClaim s.program.address
      (e.dispose.run s).2.world.host.files) : excused := by
  cases hslot : s.slot with
  | unloaded =>
      have hrun : e.dispose.run s = ((), s) := by
        rw [dispose, run_bind, run_slot, hslot]
        rfl
      rw [hrun] at hholds
      cases h with
      | bound slot live =>
          rw [hslot] at slot
          cases slot
      | unclaimed slot claim => exact claim hholds
  | loaded image context =>
      have hrun : e.dispose.run s = e.unload.run s := by
        rw [dispose, run_bind, run_slot, hslot]
        rfl
      obtain ⟨haddress, -⟩ := Watched.orderlyAt_reset e s
      rw [Watched.act_reset] at haddress
      rw [hrun, unload, run_bind, run_bind, ← haddress] at hholds
      refine excused_of_teardown hrelease ?_ hholds
      exact (settled_reset h).edit rfl

end Engine

end Automation
