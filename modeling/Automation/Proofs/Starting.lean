import Automation.Environment
import Automation.Proofs.Files.Effects
import Automation.Proofs.Files.Meets

/-
Starting up, step by step.

An environment starts in six steps, and each of them may fail.  What a start guarantees is put
together from what its steps do.
-/

namespace Automation.Environment

/-- What the steps of a start hand on to each other, from before the first one (`P`) to the end:
`Q` when it succeeds and `E` when it fails. -/
theorem meets_start {config : EngineConfig} {processes : ProcessTable} {n : Nat}
    {P stored shared swept E : FileTree → Prop} {made : Path × Nat → FileTree → Prop}
    {Q : Environment × Registry × Nat → FileTree → Prop}
    (hrefused : ∀ t, P t → E t)
    (hstore : FileTask.Meets P (ArtifactStore.ofConfig config).ensureDirectories
      (fun _ => stored) E)
    (hclaims : FileTask.Meets stored
      (FileTask.during (.createShadowDirectory (config.shadowDir.child claimsName))
        (FileAction.createDirectory (config.shadowDir.child claimsName))) (fun _ => shared) E)
    (hsweep : FileAction.Meets shared (removeDeadSnapshots processes config.shadowDir)
      fun _ => swept)
    (hmake : FileTask.Meets swept (makeSnapshotDirectory processes config.shadowDir n) made E)
    (hread : ∀ snapshot, FileAction.Meets (made snapshot) (readTemplate config).run
      fun _ => made snapshot)
    (hdone : ∀ snapshot template t, made snapshot t →
      Q (⟨config, .ofConfig config, template, snapshot.1⟩,
        .withClaims ⟨config.shadowDir.child claimsName, config.shadowDir,
          snapshot.1.fileName?.getD ""⟩, snapshot.2) t)
    (hundo : ∀ snapshot, FileAction.Meets (made snapshot)
      (FileAction.perform (.removeTree snapshot.1)) fun _ => E) :
    FileTask.Meets P (start config processes n) Q E := by
  rw [start]
  split
  · exact FileTask.Meets.bind (Q := fun _ _ => False) (FileTask.meets_throw hrefused)
      fun _ => ⟨fun _ h => h.elim⟩
  · dsimp only
    refine hstore.bind fun _ => hclaims.bind fun _ => ?_
    refine (FileTask.meets_lift hsweep).bind fun _ => hmake.bind fun snapshot => ?_
    refine (FileTask.meets_lift (hread snapshot)).bind fun template => ?_
    cases template with
    | ok template => exact FileTask.meets_pure (hdone snapshot template)
    | error f =>
        exact (FileTask.meets_lift (hundo snapshot)).bind fun _ =>
          FileTask.meets_throw fun _ ht => ht

/-- What is kept whenever one directory of a process that is gone goes away is kept when all of them do.
Their names are of some kind, as long as nothing has been removed. -/
theorem meets_removeDeadSnapshots_of_keeps {processes : ProcessTable} {shadowDir : Path}
    {P : FileTree → Prop} (kind : String → Prop) (hpart : ∀ name, kind name → IsPart name)
    (hfound : ∀ t name, P t →
      t.node? (shadowDir.destination t.workingDirectory ++ [name]) ≠ none →
        isDead processes name = true → kind name)
    (hkept : ∀ t name, P t → kind name → isDead processes name = true →
      P (t.eraseBelow (shadowDir.destination t.workingDirectory ++ [name]))) :
    FileAction.Meets P (removeDeadSnapshots processes shadowDir) fun _ => P := by
  refine FileAction.Meets.bind (Q := fun names t => P t ∧
    ∀ name ∈ names, kind name ∧ isDead processes name = true)
    (FileAction.meets_observe fun t ht => ⟨ht, fun name hname => ?_⟩) fun names => ?_
  · cases hlist : t.list shadowDir with
    | error e =>
        rw [hlist] at hname
        cases hname
    | ok found =>
        simp only [hlist] at hname
        obtain ⟨hmem, hdead⟩ := List.mem_filter.mp hname
        obtain ⟨⟨other, node⟩, hentry, rfl⟩ := List.mem_map.mp hmem
        exact ⟨hfound t other ht (FileTree.node?_ne_none_of_list hlist hentry) hdead, hdead⟩
  · refine FileAction.Meets.mono (FileAction.meets_forM fun name hname =>
      (FileAction.meets_perform_of_keeps fun t t' ht hremove => ⟨?_, ht.2⟩).bind
        fun _ => FileAction.meets_pure fun _ ht => ht) (fun _ ht => ht) fun _ _ ht => ht.1
    obtain ⟨hkind, hdead⟩ := ht.2 name hname
    obtain rfl := FileTree.removeTree_ok hremove
    rw [Path.destination_child (hpart name hkind)]
    exact hkept t name ht.1 hkind hdead

/-- A registry that an environment starts with has no generations. -/
theorem start_slots (config : EngineConfig) (processes : ProcessTable) (n : Nat) :
    FileTask.Meets (fun _ => True) (start config processes n)
      (fun started _ => started.2.1.slots = []) fun _ => True :=
  meets_start (fun _ _ => trivial) (FileTask.meets_trivial _) (FileTask.meets_trivial _)
    ⟨fun _ _ => trivial⟩ (FileTask.meets_trivial _) (fun _ => ⟨fun _ _ => trivial⟩)
    (fun _ _ _ _ => rfl) fun _ => ⟨fun _ _ => trivial⟩

end Automation.Environment
