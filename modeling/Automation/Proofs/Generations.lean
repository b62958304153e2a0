import Automation.Registry
import Mathlib.Data.List.Basic

/-
What opening and closing do to the generations.

The files decide whether a context can be opened, and nothing else: opening takes the generation
after the last one or leaves the registry as it was, and closing retires a generation whatever
becomes of its claim.  The counter of an address never goes back.
-/

namespace Automation.Registry

/-- The last generation given out for an address. -/
def lastGeneration (r : Registry) (address : String) : Generation := (r.slot address).last

/-- What a registry is once an address has a live generation of that number. -/
def opened (r : Registry) (address : String) : Registry :=
  r.setSlot address ⟨r.lastGeneration address + 1, some (r.lastGeneration address + 1)⟩

/-- What a registry is once an address has no live generation any more. -/
def retired (r : Registry) (address : String) : Registry :=
  r.setSlot address ⟨r.lastGeneration address, none⟩

section

variable (r : Registry) (address other : String)

@[simp] theorem liveGeneration_opened :
    (r.opened address).liveGeneration other =
      if other = address then some (r.lastGeneration address + 1) else r.liveGeneration other := by
  by_cases h : other = address <;> simp [opened, liveGeneration, slot_setSlot, h]

@[simp] theorem lastGeneration_opened :
    (r.opened address).lastGeneration other =
      if other = address then r.lastGeneration address + 1 else r.lastGeneration other := by
  by_cases h : other = address <;> simp [opened, lastGeneration, slot_setSlot, h]

@[simp] theorem liveGeneration_retired :
    (r.retired address).liveGeneration other =
      if other = address then none else r.liveGeneration other := by
  by_cases h : other = address <;> simp [retired, liveGeneration, slot_setSlot, h]

@[simp] theorem lastGeneration_retired :
    (r.retired address).lastGeneration other = r.lastGeneration other := by
  by_cases h : other = address <;> simp [retired, lastGeneration, slot_setSlot, h]

@[simp] theorem claims_opened : (r.opened address).claims = r.claims := rfl

@[simp] theorem claims_retired : (r.retired address).claims = r.claims := rfl

end

/-- Opening a context succeeds with the next generation, or is refused and changes nothing; it is
refused while a generation is live. -/
theorem openContext_cases (r : Registry) (address : String) (t : FileTree) :
    (r.liveGeneration address = none ∧
        ((r.openContext address).run t).1 =
          (.ok (r.lastGeneration address + 1), r.opened address)) ∨
      ∃ e, ((r.openContext address).run t).1 = (.error e, r) := by
  rw [openContext]
  split
  · next generation hlive => exact Or.inr ⟨_, rfl⟩
  · next hlive =>
    rw [FileAction.run_bind]
    split
    · exact Or.inr ⟨_, rfl⟩
    · exact Or.inl ⟨hlive, rfl⟩

/-- A generation that was opened is the one after the last, and live. -/
theorem openContext_ok {r : Registry} {address : String} {t : FileTree} {generation : Generation}
    (h : ((r.openContext address).run t).1.1 = .ok generation) :
    r.liveGeneration address = none ∧ generation = r.lastGeneration address + 1 ∧
      ((r.openContext address).run t).1.2 = r.opened address := by
  rcases openContext_cases r address t with ⟨hlive, hrun⟩ | ⟨e, hrun⟩
  · rw [hrun] at h ⊢
    exact ⟨hlive, by simpa using h.symm, rfl⟩
  · rw [hrun] at h
    cases h

/-- A refused opening leaves the registry as it was. -/
theorem openContext_error {r : Registry} {address : String} {t : FileTree} {e : RegistryError}
    (h : ((r.openContext address).run t).1.1 = .error e) :
    ((r.openContext address).run t).1.2 = r := by
  rcases openContext_cases r address t with ⟨_, hrun⟩ | ⟨e, hrun⟩
  · rw [hrun] at h
    cases h
  · rw [hrun]

/-- Closing retires the live generation and no other. -/
theorem closeContext_run (r : Registry) (address : String) (generation : Generation)
    (t : FileTree) :
    ((r.closeContext address generation).run t).1 =
      if r.isLive address generation then r.retired address else r := by
  rw [closeContext]
  split
  · rw [FileAction.run_bind]
    rfl
  · rfl

end Automation.Registry
