import Automation.Proofs.Sharing.Settled
import Automation.Proofs.Starting

/-
Starting among others.

A start makes directories outside the shadow root and that of the claims in it, removes the
directories of processes that are gone and makes one of its own.  None of this is in the way of an
environment of a process that is there.
-/

namespace Automation

section Start

variable {root : Location} {tenants : Nat → Option Tenant} {p : Process} {config : EngineConfig}
  {others : List Nat}

/-- All is in order as seen from a process. -/
structure Seen (root : Location) (tenants : Nat → Option Tenant) (p : Process) (t : FileTree) :
    Prop where
  workingDirectory : t.workingDirectory = p.workingDirectory
  inOrder : InOrder root tenants t

/-- The process can reach the shadow root, and the directory of the claims is there. -/
structure Ready (root : Location) (tenants : Nat → Option Tenant) (p : Process)
    (config : EngineConfig) (t : FileTree) : Prop extends Seen root tenants p t where
  reaches : t.Reaches config.shadowDir root
  shared : t.node? (claimsLocation root) = some .directory

/-- The process has made a snapshot directory with a name that nobody has. -/
structure Made (root : Location) (tenants : Nat → Option Tenant) (p : Process)
    (config : EngineConfig) (snapshot : Path) (t : FileTree) : Prop
    extends Ready root tenants p config t where
  made : ∃ owner, Environment.IsOwnerOf p.id owner ∧ snapshot.fileName? = some owner ∧
    snapshot.destination p.workingDirectory = root ++ [owner] ∧
    t.node? (root ++ [owner]) = some .directory ∧
    ∀ id tenant, tenants id = some tenant → tenant.owner ≠ owner

theorem Seen.put_directory {t : FileTree} (h : Seen root tenants p t) {l : Location}
    (hfree : t.node? l = none) (hl : ¬IsBelow root l ∨ l = claimsLocation root) :
    Seen root tenants p (t.put l .directory) := by
  refine ⟨h.workingDirectory, h.inOrder.put_directory hfree ?_⟩
  rcases hl with houtside | hclaims
  · exact Or.inl houtside
  · exact Or.inr (Or.inl hclaims)

theorem meets_ensureDirectories
    (houtside : StaysOutside root p.workingDirectory
      (config.programsDir.child ArtifactStore.stagingName)) :
    FileTask.Meets (Seen root tenants p) (ArtifactStore.ofConfig config).ensureDirectories
      (fun _ => Seen root tenants p) (Seen root tenants p) := by
  refine FileTask.meets_during (FileAction.Meets.mono (FileAction.meets_createDirectory
    fun before hbefore t ht hfree => ?_) (fun _ ht => ht) fun made t ht => ?_)
  · rw [ht.workingDirectory] at hfree ⊢
    exact ht.put_directory hfree (Or.inl (houtside before hbefore))
  · cases made with
    | ok _ => exact ht
    | error _ => exact ht

theorem meets_claimsDirectory {activity : Activity}
    (hshadow : config.shadowDir.destination p.workingDirectory = root)
    (houtside : StaysOutside root p.workingDirectory config.shadowDir) :
    FileTask.Meets (Seen root tenants p)
      (FileTask.during activity
        (FileAction.createDirectory (config.shadowDir.child Environment.claimsName)))
      (fun _ => Ready root tenants p config) (Seen root tenants p) := by
  have hkept : FileAction.Meets (Seen root tenants p)
      (FileAction.createDirectory (config.shadowDir.child Environment.claimsName))
      fun _ => Seen root tenants p := by
    refine FileAction.meets_createDirectory fun before hbefore t ht hfree => ?_
    rw [ht.workingDirectory] at hfree ⊢
    refine ht.put_directory hfree ?_
    rw [Path.names_child isName_claimsName.isPart, List.prefix_concat_iff] at hbefore
    rcases hbefore with hall | hbefore
    · right
      rw [hall, ← Path.names_child isName_claimsName.isPart]
      have hdestination := Path.destination_child (p := config.shadowDir) isName_claimsName.isPart
        p.workingDirectory
      rw [hshadow] at hdestination
      exact hdestination
    · left
      rw [Path.origin, Path.isAbsolute_child isName_claimsName.isPart]
      exact houtside before hbefore
  have hmade := FileAction.createDirectory_isDirectory (p := config.shadowDir) isName_claimsName
  refine FileTask.meets_during (FileAction.Meets.mono
    (hkept.and (hmade.mono (fun _ _ => trivial) fun _ _ h => h)) (fun _ ht => ht)
    fun made t ht => ?_)
  obtain ⟨hseen, hthere⟩ := ht
  cases made with
  | error _ => exact hseen
  | ok _ =>
      have hdirectory := hthere rfl
      rw [FileTree.isDirectory_child_iff isName_claimsName, hseen.workingDirectory, hshadow]
        at hdirectory
      obtain ⟨hreaches, _, hnode⟩ := hdirectory
      exact ⟨hseen, hreaches, hnode⟩

/-- A directory that is of no environment may be removed. -/
theorem Ready.eraseBelow {t : FileTree} {name : String} (h : Ready root tenants p config t)
    (houtside : StaysOutside root p.workingDirectory config.shadowDir)
    (hclaims : name ≠ Environment.claimsName)
    (hnobody : ∀ id tenant, tenants id = some tenant → tenant.owner ≠ name) :
    Ready root tenants p config (t.eraseBelow (root ++ [name])) := by
  have herase : ∀ l, (t.eraseBelow (root ++ [name])).node? l =
      if root ++ [name] <+: l then none else t.node? l :=
    fun l => FileTree.node?_eraseBelow_of_ne (by simp)
  refine ⟨⟨h.workingDirectory, h.inOrder.eraseBelow hclaims hnobody⟩, ?_, ?_⟩
  · refine h.reaches.mono rfl fun before hbefore hdirectory => ?_
    rw [h.workingDirectory] at hdirectory ⊢
    rw [herase, if_neg (not_child_isPrefix (houtside before hbefore)), hdirectory]
  · rw [herase, if_neg, h.shared]
    intro hbelow
    apply hclaims
    exact child_isPrefix_child.mp hbelow

theorem meets_removeDeadSnapshots {processes : ProcessTable}
    (hshadow : config.shadowDir.destination p.workingDirectory = root)
    (houtside : StaysOutside root p.workingDirectory config.shadowDir)
    (halive : ∀ id tenant, tenants id = some tenant →
      processes.isAlive tenant.process.id = true) :
    FileAction.Meets (Ready root tenants p config)
      (Environment.removeDeadSnapshots processes config.shadowDir)
      fun _ => Ready root tenants p config := by
  -- The names that are removed are those of owners, whose processes are gone.
  refine Environment.meets_removeDeadSnapshots_of_keeps Environment.IsOwner
    (fun name howner => howner.isName.isPart) (fun t name ht hthere hdead => ?_)
    fun t name ht howner hdead => ?_
  · rw [ht.workingDirectory, hshadow] at hthere
    obtain ⟨node, hnode⟩ := Option.ne_none_iff_exists'.mp hthere
    rcases (ht.inOrder.names _ node hnode).2 with hclaims | howner
    · rw [hclaims, Environment.isDead_claimsName] at hdead
      cases hdead
    · exact howner
  · rw [ht.workingDirectory, hshadow]
    refine ht.eraseBelow houtside howner.ne_claimsName
      fun id tenant htenant heq => ?_
    have hsettled := ht.inOrder.settled id tenant htenant
    have hnot := hsettled.owned.isDead tenant.process.isNumber processes
    rw [heq, hdead, halive id tenant htenant] at hnot
    cases hnot

/-- All before the number that is found are taken, and it is free if tries are left. -/
theorem exists_firstFree_eq (path : Nat → Path) (t : FileTree) (tries n : Nat) :
    ∃ m, firstFree path t tries n = (path m, m) ∧ n ≤ m ∧ m ≤ n + tries ∧
      (∀ j, n ≤ j → j < m → t.exists? (path j) = true) ∧
      (m < n + tries → t.exists? (path m) = false) := by
  induction tries generalizing n with
  | zero => exact ⟨n, rfl, le_rfl, le_rfl, by omega, by omega⟩
  | succ tries ih =>
      rw [firstFree]
      by_cases htaken : t.exists? (path n) = true
      · obtain ⟨m, heq, hle, htries, hbefore, hfree⟩ := ih (n + 1)
        refine ⟨m, by rw [if_pos htaken, heq], by omega, by omega, ?_, fun hlt => hfree (by omega)⟩
        intro j hj hjm
        rcases hj.eq_or_lt with rfl | hlt
        · exact htaken
        · exact hbefore j hlt hjm
      · refine ⟨n, by rw [if_neg htaken], le_rfl, by omega, by omega, ?_⟩
        exact fun _ => Bool.not_eq_true _ ▸ htaken

/-- The first free number is found if there are tries enough. -/
theorem firstFree_eq (path : Nat → Path) {t : FileTree} {tries n m : Nat} (hle : n ≤ m) (htries : m ≤ n + tries)
    (htaken : ∀ j, n ≤ j → j < m → t.exists? (path j) = true)
    (hfree : t.exists? (path m) = false) : firstFree path t tries n = (path m, m) := by
  induction tries generalizing n with
  | zero =>
      obtain rfl : n = m := by omega
      rfl
  | succ tries ih =>
      rw [firstFree]
      rcases hle.eq_or_lt with rfl | hlt
      · rw [hfree, if_neg Bool.false_ne_true]
      · rw [if_pos (htaken n le_rfl hlt)]
        exact ih hlt (by omega) fun j hj => htaken j (by omega)

/-- A snapshot directory that could be made has a name that nobody has. -/
theorem Ready.made {t t' : FileTree} {owner : String} (h : Ready root tenants p config t)
    (howner : Environment.IsOwnerOf p.id owner)
    (hshadow : config.shadowDir.destination p.workingDirectory = root)
    (hmake : t.makeDirectory ((t.absolute config.shadowDir).child owner) = .ok t') :
    Made root tenants p config ((t.absolute config.shadowDir).child owner) t' := by
  have hplace : ∀ name ∈ t.workingDirectory, IsName name := by
    rw [h.workingDirectory]
    exact p.isPlace
  have hdestination : ((t.absolute config.shadowDir).child owner).destination
      p.workingDirectory = root ++ [owner] := by
    rw [Path.destination_child howner.isName.isPart, Path.destination_absolute hplace,
      h.workingDirectory, hshadow]
  obtain ⟨hfree, rfl⟩ := FileTree.makeDirectory_ok hmake
  rw [h.workingDirectory, hdestination] at hfree ⊢
  have hne : root ++ [owner] ≠ [] := by simp
  refine ⟨⟨⟨h.workingDirectory, h.inOrder.put_directory hfree ?_⟩, ?_, ?_⟩, owner, howner, ?_,
    hdestination, ?_, ?_⟩
  · exact Or.inr (Or.inr ⟨owner, ⟨p.id, p.isNumber, howner⟩, rfl⟩)
  · exact h.reaches.put hne fun _ => rfl
  · rw [FileTree.node?_put_of_ne hne, h.shared, ite_self]
  · exact Path.fileName?_child howner.isName.isPart _
  · rw [FileTree.node?_put_of_ne hne, if_pos rfl]
  · rintro id tenant htenant rfl
    rw [(h.inOrder.settled id tenant htenant).present] at hfree
    cases hfree

/-- A snapshot directory has the name of an owner, and is made where nothing was. -/
theorem meets_makeSnapshotDirectory_of_made {processes : ProcessTable} {shadowDir : Path} {n : Nat}
    {P E : FileTree → Prop} {made : Path → FileTree → Prop}
    (hmade : ∀ t t' owner, P t → Environment.IsOwnerOf processes.self owner →
      t.makeDirectory ((t.absolute shadowDir).child owner) = .ok t' →
        made ((t.absolute shadowDir).child owner) t')
    (hrefused : ∀ t, P t → E t) :
    FileTask.Meets P (Environment.makeSnapshotDirectory processes shadowDir n)
      (fun snapshot => made snapshot.1) E := by
  refine FileTask.Meets.bind (Q := fun found t => P t ∧
    ∃ m, found.1 = Environment.snapshotPath processes (t.absolute shadowDir) m)
    (FileTask.meets_observe fun t ht => ⟨ht, ?_⟩) fun found => ?_
  · obtain ⟨m, hm, -⟩ := exists_firstFree_eq
      (Environment.snapshotPath processes (t.absolute shadowDir)) t (t.entries.length + 1) n
    rw [hm]
    exact ⟨m, rfl⟩
  · obtain ⟨path, used⟩ := found
    refine FileTask.Meets.bind (Q := fun result t =>
      (result = .ok () → made path t) ∧ (result ≠ .ok () → E t)) (FileTask.meets_lift
        (FileAction.meets_perform (fun t t' ht hmake => ?_)
          fun t _ ht _ => ⟨fun hok => (by cases hok), fun _ => hrefused t ht.1⟩)) fun result => ?_
    · obtain ⟨hbefore, m, hpath⟩ := ht
      dsimp only at hpath
      subst hpath
      exact ⟨fun _ => hmade t t' _ hbefore ⟨m, rfl⟩ hmake, fun hfailed => absurd rfl hfailed⟩
    · cases result with
      | ok _ => exact FileTask.meets_pure fun _ ht => ht.1 rfl
      | error e => exact FileTask.meets_throw fun _ ht => ht.2 (by simp)

theorem meets_makeSnapshotDirectory {n : Nat}
    (hshadow : config.shadowDir.destination p.workingDirectory = root) :
    FileTask.Meets (Ready root tenants p config)
      (Environment.makeSnapshotDirectory ⟨p.id, others⟩ config.shadowDir n)
      (fun snapshot => Made root tenants p config snapshot.1) (Seen root tenants p) :=
  meets_makeSnapshotDirectory_of_made
    (fun _ _ _ ht howner hmake => ht.made howner hshadow hmake) fun _ ht => ht.toSeen

/-- Reading the template changes nothing. -/
theorem meets_readTemplate {P : FileTree → Prop} :
    FileAction.Meets P (Environment.readTemplate config).run fun _ => P := by
  have hread : FileTask.Meets P (Environment.readTemplate config) (fun _ => P) P := by
    rw [Environment.readTemplate]
    split
    · exact FileTask.meets_pure fun _ ht => ht
    · refine FileTask.Meets.bind (Q := fun _ => P) (FileTask.meets_during
        (FileAction.meets_observe fun t ht => ?_)) fun text => ?_
      · split
        · exact ht
        · exact ht
      · split
        · exact FileTask.meets_pure fun _ ht => ht
        · exact FileTask.meets_throw fun _ ht => ht
  refine FileAction.Meets.mono hread (fun _ ht => ht) fun result t ht => ?_
  cases result with
  | ok _ => exact ht
  | error _ => exact ht

theorem meets_removeSnapshot {snapshot : Path} :
    FileAction.Meets (Made root tenants p config snapshot)
      (FileAction.perform (.removeTree snapshot)) fun _ => Seen root tenants p := by
  refine FileAction.meets_perform (fun t t' ht hremove => ?_) fun t _ ht _ => ht.toSeen
  obtain ⟨owner, howner, _, hdestination, _, hnew⟩ := ht.made
  obtain rfl := FileTree.removeTree_ok hremove
  rw [ht.workingDirectory, hdestination]
  have hne : owner ≠ Environment.claimsName :=
    Environment.IsOwner.ne_claimsName ⟨p.id, p.isNumber, howner⟩
  exact ⟨ht.workingDirectory, ht.inOrder.eraseBelow hne hnew⟩

/-- What a start leaves is in order, and the environment that was started is settled in it. -/
theorem meets_start {n : Nat} (hshadow : config.shadowDir.destination p.workingDirectory = root)
    (houtside : StaysOutside root p.workingDirectory config.shadowDir)
    (hprograms : StaysOutside root p.workingDirectory
      (config.programsDir.child ArtifactStore.stagingName))
    (halive : ∀ id tenant, tenants id = some tenant →
      (ProcessTable.mk p.id others).isAlive tenant.process.id = true) :
    FileTask.Meets (Seen root tenants p) (Environment.start config ⟨p.id, others⟩ n)
      (fun started t => Seen root tenants p t ∧ Settled root t ⟨p, started.1, started.2.1⟩ ∧
        ∀ id tenant, tenants id = some tenant →
          tenant.owner ≠ (Tenant.mk p started.1 started.2.1).owner)
      (Seen root tenants p) := by
  have hsweep := meets_removeDeadSnapshots hshadow houtside halive
  have hmake : FileTask.Meets (Ready root tenants p config)
      (Environment.makeSnapshotDirectory ⟨p.id, others⟩ config.shadowDir n)
      (fun snapshot => Made root tenants p config snapshot.1) (Seen root tenants p) :=
    meets_makeSnapshotDirectory hshadow
  refine Environment.meets_start (fun _ ht => ht) (meets_ensureDirectories hprograms)
    (meets_claimsDirectory hshadow houtside) hsweep hmake (fun _ => meets_readTemplate)
    (fun snapshot template t ht => ?_) fun _ => meets_removeSnapshot
  obtain ⟨owner, howner, hname, hdestination, hpresent, hnew⟩ := ht.made
  have hself : snapshot.1.fileName?.getD "" = owner := by
    rw [hname]
    rfl
  subst hself
  have hreaches : (t.seenBy p).Reaches config.shadowDir root :=
    ht.reaches.of_kept ht.workingDirectory.symm fun _ hdirectory => hdirectory
  refine ⟨ht.toSeen, ?_, ?_⟩
  · constructor
    · rfl
    · exact howner
    · exact houtside
    · exact hdestination
    · exact hreaches
    · exact ht.shared
    · exact hpresent
    · intro address hlive
      exact absurd rfl hlive
  · exact hnew

end Start

namespace Commons

variable {root : Location} {c : Commons} {id : Nat} {p : Process} {config : EngineConfig}
  {others : List Nat}

theorem inOrder_start {n : Nat} (h : InOrder root c.tenants c.files)
    (hstart : c.CanStart root p config others) :
    InOrder root (c.start id p config others n).tenants (c.start id p config others n).files := by
  have hmeets := meets_start (n := n) hstart.shadow hstart.shadowOutside hstart.programsOutside
    hstart.alive
  have hend := hmeets.run (c.files.seenBy p) ⟨rfl, h.seenBy p⟩
  rw [start]
  split
  · next environment registry next files hrun =>
    rw [hrun] at hend
    obtain ⟨hseen, hsettled, hnew⟩ := hend
    exact hseen.inOrder.insert id hsettled hnew
  · next failure files hrun =>
    rw [hrun] at hend
    exact Seen.inOrder hend

end Commons

end Automation
