import Automation.Proofs.Engine.Events
import Automation.Proofs.Publishing.Visibility

/-
Loading.

Reading an artifact only looks at the files, and looks at no others than the stable artifact and
the debug files that have an extension added.  A load first clears the slot; whatever is read then
is what the slot holds in the end.
-/

namespace Automation

namespace ArtifactStore

variable (s : ArtifactStore) (address : String) (t : FileTree)

/-- The image that is to be read of an address. -/
def imageAt : Except Failure ArtifactImage :=
  match s.stablePath address with
  | .error f => .error f
  | .ok stable =>
      match t.readBytes stable with
      | .error e => .error ⟨[.readArtifact stable], .os e⟩
      | .ok bytes => .ok ⟨bytes, s.debugExtensions.findSome? fun extension =>
          t.content? (stable.append ("." ++ extension))⟩

theorem run_read_eq : FileAction.run (s.read address).run t = (s.imageAt address t, t) := by
  rw [read, FileTask.run_bind, FileTask.run_ofExcept, imageAt]
  cases s.stablePath address with
  | error f => rfl
  | ok stable =>
      dsimp only
      cases hread : t.readBytes stable with
      | error e => rw [FileTask.run_bind, FileTask.run_inspect_error hread]
      | ok bytes =>
          rw [FileTask.run_bind, FileTask.run_inspect_ok hread]
          dsimp only
          rw [FileTask.run_bind, run_readDebug]
          exact FileTask.run_pure _ _

/-- The same is to be read of an address: its artifact, and its debug files with an extension
added. -/
def SameStored (t now : FileTree) : Prop :=
  ∀ stable, s.stablePath address = .ok stable →
    now.content? stable = t.content? stable ∧
      ∀ extension ∈ s.debugExtensions,
        now.content? (stable.append ("." ++ extension)) =
          t.content? (stable.append ("." ++ extension))

variable {s address t}

/-- As long as the stored files have not changed, whoever has read an image reads it again. -/
theorem SameStored.imageAt {now : FileTree} (h : s.SameStored address t now)
    {image : ArtifactImage} (hread : s.imageAt address t = .ok image) :
    s.imageAt address now = .ok image := by
  rw [ArtifactStore.imageAt] at hread ⊢
  cases hstable : s.stablePath address with
  | error f =>
      rw [hstable] at hread
      cases hread
  | ok stable =>
      rw [hstable] at hread
      obtain ⟨hartifact, hdebug⟩ := h stable hstable
      dsimp only at hread ⊢
      cases hbytes : t.readBytes stable with
      | error e =>
          rw [hbytes] at hread
          cases hread
      | ok bytes =>
          rw [hbytes] at hread
          have hnow : now.content? stable = some bytes := by
            rw [hartifact, FileTree.content?, hbytes]
            rfl
          rw [readBytes_of_content? hnow, ← hread, findSome?_congr hdebug]

end ArtifactStore

namespace Engine

open EngineAct

variable {τ ε : Type} (e : Engine τ ε) (s : EngineState τ ε)

/-- What a reader of the store gets for the program. -/
def stored : Except Failure ArtifactImage :=
  (FileAction.run (e.environment.store.read s.program.address).run s.world.host.files).1

/-- What an engine works on once nothing is loaded any more. -/
def cleared : EngineState τ ε := if s.slot.isLoaded then (e.teardown.run s).2 else s

theorem stored_eq :
    e.stored s = e.environment.store.imageAt s.program.address s.world.host.files := by
  rw [stored, ArtifactStore.run_read_eq]

/-- Only an address has something stored. -/
theorem isAddress_of_stored {image : ArtifactImage} (h : e.stored s = .ok image) :
    isAddress s.program.address = true := by
  rw [stored_eq, ArtifactStore.imageAt, ArtifactStore.stablePath, ArtifactStore.checkAddress] at h
  split_ifs at h with haddress
  · exact haddress
  · cases h

theorem slot_cleared : (e.cleared s).slot = .unloaded := by
  rw [cleared]
  cases hslot : s.slot with
  | unloaded => exact hslot
  | loaded image context =>
      obtain ⟨w, hrun⟩ := e.teardown_run s
      simp [Slot.isLoaded, hrun]

theorem program_cleared : (e.cleared s).program = s.program := by
  rw [cleared]
  split
  · obtain ⟨w, hrun⟩ := e.teardown_run s
    rw [hrun]
  · rfl

/-- What a load that reads something does after the slot has been cleared. -/
def copyStored : EngineAct τ ε Bool := do
  let address ← address
  match ← inWorld (Act.task (e.environment.store.read address)) with
  | .ok image =>
      setSlot (.loaded image none)
      pure true
  | .error f =>
      let problem ← inWorld (Act.files (FileAction.observe (e.loadProblem address f)))
      editProgram fun p => if p.scriptErrors.isEmpty then { p with scriptErrors := problem } else p
      pure false

theorem load_run : e.load.run s = e.copyStored.run (e.cleared s) := by
  cases hloaded : s.slot.isLoaded with
  | true =>
      rw [cleared, if_pos hloaded, load, run_bind, run_slot]
      simp only [hloaded, ↓reduceIte]
      rfl
  | false =>
      rw [cleared, hloaded, load, run_bind, run_slot]
      simp only [hloaded]
      rfl

/-- A load reads the store once the slot has been cleared, and answers whether that succeeds.  Then
what was read is in the slot; otherwise the slot is empty, and the problem is noted in the program if
nothing was noted there before. -/
structure LoadOutcome (loaded : Bool) (now : EngineState τ ε) : Prop where
  answer : loaded = true ↔ ∃ image, e.stored (e.cleared s) = .ok image
  done : ∀ image, e.stored (e.cleared s) = .ok image →
    now.slot = .loaded image none ∧ now.program = s.program
  failed : ∀ f, e.stored (e.cleared s) = .error f →
    now.slot = .unloaded ∧ now.program =
      if s.program.scriptErrors.isEmpty then
        { s.program with
          scriptErrors := e.loadProblem s.program.address f (e.cleared s).world.host.files }
      else s.program

/-- Reading the store changes nothing. -/
theorem run_readStored :
    (inWorld (Act.task (e.environment.store.read s.program.address))).run s = (e.stored s, s) := by
  change (_, { s with world := s.world.withFiles (FileAction.run _ s.world.host.files).2 }) = _
  rw [stored, ArtifactStore.run_read_eq]
  rfl

theorem run_copyStored_ok {image : ArtifactImage} (h : e.stored s = .ok image) :
    e.copyStored.run s = (true, { s with slot := .loaded image none }) := by
  rw [copyStored, run_bind, run_address, run_bind, run_readStored, h]
  rfl

theorem run_copyStored_error {f : Failure} (h : e.stored s = .error f) :
    e.copyStored.run s = (false, { s with program :=
      if s.program.scriptErrors.isEmpty then
        { s.program with
          scriptErrors := e.loadProblem s.program.address f s.world.host.files }
      else s.program }) := by
  rw [copyStored, run_bind, run_address, run_bind, run_readStored, h]
  rfl

theorem cleared_of_unloaded (h : s.slot = .unloaded) : e.cleared s = s := by
  rw [cleared, h]
  rfl

theorem load_outcome : e.LoadOutcome s (e.load.run s).1 (e.load.run s).2 := by
  rw [load_run]
  cases hread : e.stored (e.cleared s) with
  | ok image =>
      rw [e.run_copyStored_ok _ hread]
      refine ⟨⟨fun _ => ⟨image, hread⟩, fun _ => rfl⟩, fun found hfound => ?_, fun f hf => ?_⟩
      · cases hread.symm.trans hfound
        exact ⟨rfl, e.program_cleared s⟩
      · cases hread.symm.trans hf
  | error f =>
      rw [e.run_copyStored_error _ hread]
      refine ⟨⟨fun hdone => Bool.noConfusion hdone, fun ⟨image, himage⟩ => ?_⟩,
        fun image himage => ?_, fun found hfound => ?_⟩
      · cases hread.symm.trans himage
      · cases hread.symm.trans himage
      · cases hread.symm.trans hfound
        refine ⟨e.slot_cleared s, ?_⟩
        simp only [program_cleared]

/-- A load leaves nothing bound. -/
theorem context?_load : (e.load.run s).2.slot.context? = none := by
  have houtcome := e.load_outcome s
  cases hread : e.stored (e.cleared s) with
  | ok image =>
      rw [(houtcome.done image hread).1]
      rfl
  | error f =>
      rw [(houtcome.failed f hread).1]
      rfl

theorem writing_load : (e.load.run s).2.program.writing = s.program.writing := by
  have houtcome := e.load_outcome s
  cases hread : e.stored (e.cleared s) with
  | ok image => rw [(houtcome.done image hread).2]
  | error f =>
      rw [(houtcome.failed f hread).2]
      split <;> rfl

end Engine

/-- Whatever an engine is told to do, it does not touch what the author has written. -/
theorem EngineEvent.writing_next {τ ε : Type} (e : Engine τ ε) {event : EngineEvent τ}
    (h : ∀ f, event ≠ .edit f) (s : EngineState τ ε) :
    (event.next e s).program.writing = s.program.writing := by
  cases event with
  | order o =>
      cases o with
      | load =>
          rw [next_load]
          exact e.writing_load s
      | unload =>
          rw [next_unload]
          exact e.writing_unload s
      | compile =>
          rw [next_compile]
          exact (e.continues_compile s).writing
      | setup =>
          rw [next_setup]
          exact (e.continues_setup s).writing
      | run options =>
          rw [next_run]
          exact (e.continues_run options s).writing
      | reset =>
          rw [next_reset]
          exact (e.continues_reset s).writing
  | drop =>
      rw [next_drop]
      exact e.writing_dispose s
  | edit f => exact absurd rfl (h f)
  | elsewhere world registry => rfl

end Automation
