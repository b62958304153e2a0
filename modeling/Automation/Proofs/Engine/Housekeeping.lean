import Automation.Proofs.Engine.Course
import Automation.Proofs.Starting

/-
What happens around the engines of a site.

Environments are started and released, and engines are given up.  What becomes of the tables of
the site is told here by cases; the files of the world may change at every turn.
-/

namespace Automation

variable {τ ε : Type}

/-- A task that uses fresh names goes on from the number it ended with. -/
theorem Act.run_freshTask_ok {α : Type} {task : Nat → FileTask (α × Nat)} {w : World τ}
    {t : FileTree} (value : α) (next : Nat)
    (h : FileAction.run (task w.host.fresh).run w.host.files = (.ok (value, next), t)) :
    (Act.freshTask task).run w = (.ok value, (w.withFiles t).withFresh next) := by
  have hfiles : (Act.files (task w.host.fresh).run).run w =
      ((FileAction.run (task w.host.fresh).run w.host.files).1,
        w.withFiles (FileAction.run (task w.host.fresh).run w.host.files).2) := rfl
  rw [StateT.run, Act.freshTask, hfiles, h]

/-- When it fails, it has used none. -/
theorem Act.run_freshTask_error {α : Type} {task : Nat → FileTask (α × Nat)} {w : World τ}
    {f : Failure} {t : FileTree}
    (h : FileAction.run (task w.host.fresh).run w.host.files = (.error f, t)) :
    (Act.freshTask task).run w = (.error f, w.withFiles t) := by
  have hfiles : (Act.files (task w.host.fresh).run).run w =
      ((FileAction.run (task w.host.fresh).run w.host.files).1,
        w.withFiles (FileAction.run (task w.host.fresh).run w.host.files).2) := rfl
  rw [StateT.run, Act.freshTask, hfiles, h]

namespace Site

/-- An environment that is not in use has no engines. -/
theorem environment_ne_of_not_isInUse {s : Site τ ε} {id : Nat} (h : s.isInUse id = false)
    {engine : Nat} {record : EngineRecord τ ε} (hrecord : Table.get? engine s.engines = some record) :
    record.environment ≠ id := by
  intro hsame
  rw [isInUse, Bool.or_eq_false_iff, List.any_eq_false] at h
  exact h.2 _ (Table.mem_of_get? hrecord) (by simpa using hsame)

/-- An environment goes away with its files when it is not in use, and otherwise nothing happens. -/
theorem releaseUnused_outcomes (id : Nat) (s : Site τ ε) :
    ((SiteAct.releaseUnused id).run s).2 = s ∨
      s.isInUse id = false ∧ ∃ shared, Table.get? id s.environments = some shared ∧
        ((SiteAct.releaseUnused id).run s).2 =
          { s with
            world := s.world.withFiles (shared.environment.release.run s.world.host.files).2
            environments := Table.erase id s.environments } := by
  rw [SiteAct.releaseUnused, StateT.run_bind, StateT.run_get, pure_bind]
  split
  · next hunused =>
    split
    · exact Or.inl rfl
    · next shared hshared => exact Or.inr ⟨by simpa using hunused, shared, hshared, rfl⟩
  · exact Or.inl rfl

/-- The same, whatever becomes of the files. -/
theorem releaseUnused_cases (id : Nat) (s : Site τ ε) :
    ((SiteAct.releaseUnused id).run s).2 = s ∨
      s.isInUse id = false ∧ ∃ w, ((SiteAct.releaseUnused id).run s).2 =
        { s with world := w, environments := Table.erase id s.environments } := by
  rcases releaseUnused_outcomes id s with hrun | ⟨hunused, shared, -, hrun⟩
  · exact Or.inl hrun
  · exact Or.inr ⟨hunused, _, hrun⟩

/-- Whoever uses a registry changes it and the files, and nothing else. -/
theorem withRegistry_run {α : Type} {id : Nat} {s : Site τ ε} {shared : SharedEnvironment}
    (hshared : Table.get? id s.environments = some shared)
    (act : Registry → FileAction (α × Registry)) :
    ((SiteAct.withRegistry id act).run s).2 =
      { s with
        world := s.world.withFiles ((act shared.registry).run s.world.host.files).2
        environments := Table.put id
          { shared with registry := ((act shared.registry).run s.world.host.files).1.2 }
          s.environments } := by
  rw [SiteAct.withRegistry, StateT.run_bind, StateT.run_get, pure_bind]
  simp only [hshared]
  rfl

theorem withRegistry_of_none {α : Type} {id : Nat} {s : Site τ ε}
    (hnone : Table.get? id s.environments = none) (act : Registry → FileAction (α × Registry)) :
    ((SiteAct.withRegistry id act).run s).2 = s := by
  rw [SiteAct.withRegistry, StateT.run_bind, StateT.run_get, pure_bind]
  simp only [hnone]
  rfl

/-- A start that succeeds adds an environment and tells its number; one that fails adds none. -/
theorem startEnvironment_run (config : EngineConfig) (s : Site τ ε) :
    (∃ f t, FileAction.run (Environment.start config s.world.host.processes
          s.world.host.fresh).run s.world.host.files = (.error f, t) ∧
        (SiteAct.startEnvironment config).run s =
          (.error f, { s with world := s.world.withFiles t })) ∨
      ∃ environment registry next t, FileAction.run (Environment.start config
          s.world.host.processes s.world.host.fresh).run s.world.host.files =
            (.ok (environment, registry, next), t) ∧
        (SiteAct.startEnvironment config).run s =
          (.ok (s.next, environment), { s with
            world := (s.world.withFiles t).withFresh next
            next := s.next + 1
            environments := Table.put s.next ⟨environment, registry, true⟩ s.environments }) := by
  have hin : ∀ act : World τ → Except Failure (Environment × Registry) × World τ,
      (SiteAct.inWorld act : SiteAct τ ε _).run s =
        ((act s.world).1, { s with world := (act s.world).2 }) := fun _ => rfl
  rw [SiteAct.startEnvironment, StateT.run_bind, hin]
  cases hstart : FileAction.run (Environment.start config s.world.host.processes
      s.world.host.fresh).run s.world.host.files with
  | mk result t =>
      cases result with
      | error f =>
          rw [Act.run_freshTask_error (f := f) (t := t) (by rw [FileTask.run_bind, hstart])]
          exact Or.inl ⟨f, t, rfl, rfl⟩
      | ok started =>
          obtain ⟨environment, registry, next⟩ := started
          rw [Act.run_freshTask_ok (t := t) (environment, registry) next
            (by rw [FileTask.run_bind, hstart]; rfl)]
          exact Or.inr ⟨environment, registry, next, t, rfl, rfl⟩

/-- The site after a start. -/
theorem startEnvironment_outcomes (config : EngineConfig) (s : Site τ ε) :
    (∃ f t, FileAction.run (Environment.start config s.world.host.processes
          s.world.host.fresh).run s.world.host.files = (.error f, t) ∧
        ((SiteAct.startEnvironment config).run s).2 = { s with world := s.world.withFiles t }) ∨
      ∃ environment registry next t, FileAction.run (Environment.start config
          s.world.host.processes s.world.host.fresh).run s.world.host.files =
            (.ok (environment, registry, next), t) ∧
        ((SiteAct.startEnvironment config).run s).2 =
          { s with
            world := (s.world.withFiles t).withFresh next
            next := s.next + 1
            environments := Table.put s.next ⟨environment, registry, true⟩ s.environments } := by
  rcases startEnvironment_run config s with
    ⟨f, t, hstart, hrun⟩ | ⟨environment, registry, next, t, hstart, hrun⟩
  · exact Or.inl ⟨f, t, hstart, congrArg Prod.snd hrun⟩
  · exact Or.inr ⟨environment, registry, next, t, hstart, congrArg Prod.snd hrun⟩

/-- The registry of a new environment has no generations. -/
theorem startEnvironment_cases (config : EngineConfig) (s : Site τ ε) :
    (∃ w, ((SiteAct.startEnvironment config).run s).2 = { s with world := w }) ∨
      ∃ w environment registry, registry.slots = [] ∧
        ((SiteAct.startEnvironment config).run s).2 =
          { s with
            world := w
            next := s.next + 1
            environments := Table.put s.next ⟨environment, registry, true⟩ s.environments } := by
  have hslots := (Environment.start_slots config s.world.host.processes s.world.host.fresh).run
    s.world.host.files trivial
  rcases startEnvironment_outcomes config s with
    ⟨f, t, -, hrun⟩ | ⟨environment, registry, next, t, hstart, hrun⟩
  · exact Or.inl ⟨_, hrun⟩
  · rw [hstart] at hslots
    exact Or.inr ⟨_, environment, registry, hslots, hrun⟩

/-- An environment that is given up stays where it is until it is not in use. -/
theorem giveUpEnvironment_run {id : Nat} {s : Site τ ε} {shared : SharedEnvironment}
    (hshared : Table.get? id s.environments = some shared) :
    ((SiteAct.giveUpEnvironment id).run s).2 =
      ((SiteAct.releaseUnused id).run
        { s with
          environments := Table.put id { shared with isHeld := false } s.environments }).2 := by
  rw [SiteAct.giveUpEnvironment, StateT.run_bind, StateT.run_modify]
  simp only [hshared]
  rfl

theorem giveUpEnvironment_of_none {id : Nat} {s : Site τ ε}
    (hnone : Table.get? id s.environments = none) :
    ((SiteAct.giveUpEnvironment id).run s).2 = ((SiteAct.releaseUnused id).run s).2 := by
  rw [SiteAct.giveUpEnvironment, StateT.run_bind, StateT.run_modify]
  simp only [hnone]
  rfl

/-- A program that is edited takes its own place. -/
theorem editProgram_run {id : Nat} {s : Site τ ε} {p : ProgramBlock}
    (hp : Table.get? id s.programs = some p) (edit : ProgramBlock → ProgramBlock) :
    ((SiteAct.editProgram id edit).run s).2 =
      { s with programs := Table.put id (edit p) s.programs } := by
  rw [SiteAct.editProgram, StateT.run_modify]
  simp only [hp]
  rfl

theorem editProgram_of_none {id : Nat} {s : Site τ ε} (hnone : Table.get? id s.programs = none)
    (edit : ProgramBlock → ProgramBlock) : ((SiteAct.editProgram id edit).run s).2 = s := by
  rw [SiteAct.editProgram, StateT.run_modify]
  simp only [hnone]
  rfl

/-- An engine that is given up is disposed of, goes away, and lets go of its environment. -/
theorem removeEngine_run {id : Nat} {s : Site τ ε} {record : EngineRecord τ ε}
    (hrecord : Table.get? id s.engines = some record) :
    ((SiteAct.removeEngine id).run s).2 =
      let disposed := ((SiteAct.withEngine id Engine.dispose).run s).2
      ((SiteAct.releaseUnused record.environment).run
        { disposed with engines := Table.erase id disposed.engines }).2 := by
  rw [SiteAct.removeEngine, StateT.run_bind, StateT.run_get, pure_bind, hrecord]
  rfl

theorem removeEngine_of_none {id : Nat} {s : Site τ ε} (hnone : Table.get? id s.engines = none) :
    ((SiteAct.removeEngine id).run s).2 = s := by
  rw [SiteAct.removeEngine, StateT.run_bind, StateT.run_get, pure_bind, hnone]
  rfl

end Site

end Automation
