import Automation.Proofs.Files.Sight
import Automation.Proofs.Publishing.Fresh
import Automation.Proofs.Publishing.Regions

/-
Addresses are kept apart.

What a store does for an address is decided by what is below the programs directory and by the way
there, and it changes only what belongs to the address.  The one exception are the directories that
the path of the programs directory leads through: where they are missing they are made for the first
path that is handed out.  A path that goes up again may lead through any place below the programs
directory, so that such a directory may be where another address has its artifact.
-/

namespace Automation

namespace ArtifactStore

open FileAction FileTree

/-- A path that is handed out is free, as it is unless all names are taken. -/
def Order.FindsFree : (order : Order) → order.Answer → FileTree → Prop
  | .stagingPath _, answer, t =>
      ∀ path next, (answer : Except Failure (Path × Nat)) = .ok (path, next) → t.exists? path = false
  | _, _, _ => True

section Sight

variable {s : ArtifactStore} {address label : String} {p dir staged stable target kept : Path}
  {R : FileTree → FileTree → Prop}

theorem blind_ofExcept {α : Type} (value : Except Failure α) :
    Blind R (FileTask.ofExcept value).run :=
  blind_pure _

theorem blind_inspect {α : Type} {activity : Activity} {look : FileTree → Except OsError α}
    (h : ∀ t t', R t t' → look t' = look t) : Blind R (FileTask.inspect activity look).run :=
  FileTask.blind_during (blind_observe h)

theorem blind_observeTask {α : Type} {look : FileTree → α} (h : ∀ t t', R t t' → look t' = look t) :
    Blind R (FileTask.observe look).run :=
  FileTask.blind_lift (blind_observe h)

theorem isBelow_desk (haddress : isAddress address = true) :
    s.programsDir.IsBelow (s.desk address) :=
  (Path.isBelow_child isName_stagingName.isPart).child (isName_of_isAddress haddress).isPart

theorem blind_removeIfExists (hp : p.IsBelow target) :
    Blind (AlikeFrom p) (removeIfExists target).run :=
  FileTask.blind_during (AlikeFrom.blind_removeIfExists hp)

theorem blind_discard (h : ∀ q ∈ target :: s.debugVariants target, p.IsBelow q) :
    Blind (AlikeFrom p) (s.discard target).run := by
  obtain ⟨hartifact, hvariants⟩ := List.forall_mem_cons.mp h
  apply FileTask.blind_bind (blind_removeIfExists hartifact)
  intro _
  apply FileTask.blind_forM
  intro q hq
  exact blind_removeIfExists (hvariants q hq)

theorem blind_setAside (htarget : p.IsBelow target) (hkept : p.IsBelow kept) :
    Blind (AlikeFrom p) (setAside target kept).run := by
  apply FileTask.blind_bind (blind_observeTask fun t t' h => h.isFile htarget)
  intro found
  split
  · apply FileTask.blind_bind (FileTask.blind_during (AlikeFrom.blind_rename htarget hkept))
    exact fun _ => blind_pure _
  · exact blind_pure _

/-- The place for what is set aside has names of its own. -/
theorem isBelow_kept {aside : Path} (haside : p.IsBelow aside) (i : Nat) :
    p.IsBelow (aside.child (toString i)) :=
  haside.child (Bench.isPart_kept i)

theorem blind_swapDebugFiles {aside : Path} {i : Nat} {pairs : List (Path × Path)}
    (haside : p.IsBelow aside)
    (hpairs : ∀ pair ∈ pairs, p.IsBelow pair.1 ∧ p.IsBelow pair.2) :
    Blind (AlikeFrom p) (swapDebugFiles aside i pairs) := by
  induction pairs generalizing i with
  | nil => exact blind_pure _
  | cons pair rest ih =>
      obtain ⟨staged, target⟩ := pair
      obtain ⟨⟨hstaged, htarget⟩, hrest⟩ := List.forall_mem_cons.mp hpairs
      rw [swapDebugFiles]
      apply (blind_setAside htarget (isBelow_kept haside i)).bind
      intro set
      split
      · exact blind_pure _
      · apply (blind_observe fun t t' h => h.isFile hstaged).bind
        intro found
        split
        · apply (AlikeFrom.blind_rename hstaged htarget).bind
          intro moved
          split
          · exact blind_pure _
          · exact (ih hrest).bind fun _ => blind_pure _
        · exact (ih hrest).bind fun _ => blind_pure _

theorem blind_restoreDebugFile {swap : DebugSwap} (htarget : p.IsBelow swap.target)
    (hprevious : ∀ kept, swap.previous = some kept → p.IsBelow kept) :
    Blind (AlikeFrom p) (restoreDebugFile swap) := by
  obtain ⟨target, previous, installed⟩ := swap
  have hremove : Blind (AlikeFrom p) (FileAction.removeIfExists target) :=
    AlikeFrom.blind_removeIfExists htarget
  have hback : Blind (AlikeFrom p) (restoreDebugFile ⟨target, previous, false⟩) := by
    cases previous with
    | none => exact blind_pure _
    | some kept =>
        exact (AlikeFrom.blind_rename (hprevious kept rfl) htarget).bind fun _ => blind_pure _
  cases installed with
  | false => exact hback
  | true => exact hremove.bind fun _ => hback

theorem blind_restoreDebugFiles {swaps : List DebugSwap}
    (h : ∀ swap ∈ swaps, p.IsBelow swap.target ∧
      ∀ kept, swap.previous = some kept → p.IsBelow kept) :
    Blind (AlikeFrom p) (restoreDebugFiles swaps) := by
  apply blind_forM
  intro swap hswap
  obtain ⟨htarget, hprevious⟩ := h swap (List.mem_reverse.mp hswap)
  exact blind_restoreDebugFile htarget hprevious

theorem blind_publish {aside : Path} (hstaged : p.IsBelow staged) (hstable : p.IsBelow stable)
    (haside : p.IsBelow aside) (hpairs : ∀ pair ∈ s.debugPairs staged stable,
      p.IsBelow pair.1 ∧ p.IsBelow pair.2) :
    Blind (AlikeFrom p) (s.publish staged stable aside) := by
  apply (blind_swapDebugFiles haside hpairs).bind_of_history
  intro t events value u hswapped
  have hmem := (swapping_of_history hswapped).of_mem
  have hundo : Blind (AlikeFrom p) (restoreDebugFiles value.1) := by
    apply blind_restoreDebugFiles
    intro swap hswap
    obtain ⟨⟨pair, hpair, htarget⟩, hkept⟩ := hmem swap hswap
    constructor
    · exact htarget ▸ (hpairs pair hpair).2
    · intro kept hprevious
      obtain ⟨i, rfl⟩ := hkept kept hprevious
      exact isBelow_kept haside i
  have hundone : ∀ f : Failure, Blind (AlikeFrom p) (do
      restoreDebugFiles value.1
      pure (.error f) : FileAction (Except Failure Unit)) :=
    fun f => hundo.bind fun _ => blind_pure _
  obtain ⟨swaps, swapped⟩ := value
  cases swapped with
  | error f => exact hundone f
  | ok _ =>
      apply (FileTask.blind_during (AlikeFrom.blind_rename hstaged hstable)).bind
      intro result
      cases result with
      | ok _ => exact blind_pure _
      | error f => exact hundone f

section Orders

variable (hs : s.Plain) (haddress : isAddress address = true)

include hs in
/-- An artifact and what may hold its debug symbols are below what is above its directory. -/
theorem Plain.isBelow_of_mem (hlabel : isAddress label = true)
    (hdir : ∀ {name : String}, IsPart name → p.IsBelow (dir.child name)) :
    ∀ q ∈ dir.child (label ++ s.artifactTail) :: s.debugVariants (dir.child (label ++ s.artifactTail)),
      p.IsBelow q := by
  intro q hq
  obtain ⟨tail, -, hpart, rfl⟩ := hs.exists_tail hlabel hq
  exact hdir hpart

include hs haddress

theorem Plain.isBelow_stable :
    ∀ q ∈ s.stableAs address :: s.debugVariants (s.stableAs address), s.programsDir.IsBelow q :=
  hs.isBelow_of_mem haddress Path.isBelow_child

omit haddress in
theorem Plain.isBelow_staged (hstaged : s.HandsOut address staged) :
    ∀ q ∈ staged :: s.debugVariants staged, s.programsDir.IsBelow q := by
  obtain ⟨haddress, label, hlabel, rfl⟩ := hstaged.exists_label
  exact hs.isBelow_of_mem hlabel (isBelow_desk haddress).child

theorem Plain.blind_evict : Blind (AlikeFrom s.programsDir) (s.evict address).run := by
  rw [evict, stablePath_eq haddress]
  exact blind_discard (hs.isBelow_stable haddress)

omit hs in
theorem blind_cleanStaging : Blind (AlikeFrom s.programsDir) (s.cleanStaging address).run := by
  rw [cleanStaging, stagingDirectory_eq haddress]
  apply FileTask.blind_during
  apply (AlikeFrom.blind_removeTree (isBelow_desk haddress)).bind
  intro outcome
  split
  · exact blind_pure _
  · exact blind_pure _

/-- Debug symbols are looked for under names of the address. -/
theorem Plain.blind_readDebug {extensions : List String}
    (hextensions : ∀ extension ∈ extensions, extension ∈ s.debugExtensions) :
    Blind (AlikeFrom s.programsDir) (readDebug (s.stableAs address) extensions).run := by
  induction extensions with
  | nil => exact blind_pure _
  | cons extension rest ih =>
      obtain ⟨hextension, hrest⟩ := List.forall_mem_cons.mp hextensions
      have hbelow : s.programsDir.IsBelow ((s.stableAs address).append ("." ++ extension)) := by
        apply hs.isBelow_stable haddress
        apply List.mem_cons_of_mem
        rw [debugVariants]
        exact List.mem_flatMap.mpr ⟨extension, hextension, List.mem_cons_self⟩
      apply FileTask.blind_bind (blind_observeTask fun t t' h => h.isFile hbelow)
      intro found
      split
      · apply FileTask.blind_bind (blind_inspect fun t t' h => h.readBytes hbelow)
        exact fun _ => blind_pure _
      · exact ih hrest

theorem Plain.blind_read : Blind (AlikeFrom s.programsDir) (s.read address).run := by
  have hstable := hs.isBelow_stable haddress _ List.mem_cons_self
  rw [read, stablePath_eq haddress]
  apply FileTask.blind_bind (blind_inspect fun t t' h => h.readBytes hstable)
  intro bytes
  apply FileTask.blind_bind (hs.blind_readDebug haddress fun _ hextension => hextension)
  exact fun _ => blind_pure _

theorem Plain.blind_hasArtifact :
    Blind (AlikeFrom s.programsDir) (FileAction.observe (s.hasArtifact address)) := by
  have hstable := hs.isBelow_stable haddress _ List.mem_cons_self
  apply blind_observe
  intro t t' h
  rw [hasArtifact, hasArtifact, stablePath_eq haddress]
  exact h.isFile hstable

omit haddress in
theorem Plain.blind_commit (hstaged : s.HandsOut address staged) :
    Blind (AlikeFrom s.programsDir) (s.commit staged address).run := by
  obtain ⟨haddress, label, hlabel, heq⟩ := hstaged.exists_label
  have hbelow := hs.isBelow_staged hstaged
  have hbelow' := hs.isBelow_stable haddress
  have haside : s.programsDir.IsBelow (asidePath staged) := by
    rw [asidePath, heq, stagedAs, append_artifact hs.toWellNamed hlabel]
    apply (isBelow_desk haddress).child
    apply isPart_label_append hlabel
    simp [artifactTail, hs.noSlash]
  have hpairs : ∀ pair ∈ s.debugPairs staged (s.stableAs address),
      s.programsDir.IsBelow pair.1 ∧ s.programsDir.IsBelow pair.2 := by
    intro pair hpair
    obtain ⟨hfirst, hsecond⟩ := List.of_mem_zip (a := pair.1) (b := pair.2) hpair
    exact ⟨hbelow _ (List.mem_cons_of_mem _ hfirst), hbelow' _ (List.mem_cons_of_mem _ hsecond)⟩
  have hfirst := hbelow _ List.mem_cons_self
  rw [commit, stablePath_eq haddress]
  apply FileTask.blind_bind (blind_observeTask fun t t' h => h.isFile hfirst)
  intro found
  split
  · apply FileTask.blind_bind (FileTask.blind_during (AlikeFrom.blind_createDirectory haside))
    intro _
    apply FileTask.blind_bind (FileTask.blind_lift
      (blind_publish hfirst (hbelow' _ List.mem_cons_self) haside hpairs))
    intro result
    apply FileTask.blind_bind (FileTask.blind_lift (AlikeFrom.blind_removeTree haside))
    exact fun _ => blind_ofExcept result
  · exact blind_ofExcept _

omit hs haddress in
/-- To look for a path, with the number to go on with, takes no step. -/
theorem history_numbered_iff {find : FileTree → Path × Nat} {t u : FileTree}
    {events : List FileEvent} {result : Except Failure (Path × Nat)} :
    History (do let (path, used) ← FileTask.observe find; pure (path, used + 1) :
        FileTask (Path × Nat)).run t events result u ↔
      events = [] ∧ result = .ok ((find t).1, (find t).2 + 1) ∧ u = t := by
  constructor
  · intro h
    rcases FileTask.history_bind_iff.mp h with
      ⟨f, -, hfound⟩ | ⟨first, found, t₁, second, rfl, hfirst, hsecond⟩
    · obtain ⟨_, hok, -⟩ := FileTask.history_lift_iff.mp hfound
      cases hok
    · obtain ⟨_, hok, hlook⟩ := FileTask.history_lift_iff.mp hfirst
      obtain rfl := Except.ok.inj hok
      obtain ⟨rfl, rfl, rfl⟩ := history_observe_iff.mp hlook
      obtain ⟨rfl, rfl, rfl⟩ := history_pure_iff.mp hsecond
      exact ⟨rfl, rfl, rfl⟩
  · rintro ⟨rfl, rfl, rfl⟩
    apply FileTask.history_bind_iff.mpr
    refine Or.inr ⟨[], find u, u, [], rfl, ?_, history_pure_iff.mpr ⟨rfl, rfl, rfl⟩⟩
    exact FileTask.history_lift_iff.mpr ⟨_, rfl, history_observe_iff.mpr ⟨rfl, rfl, rfl⟩⟩

omit hs in
/-- A path is handed out when its directory is there, after a look at what is in it. -/
theorem history_stagingPath_iff {n : Nat} {t u : FileTree} {events : List FileEvent}
    {result : Except Failure (Path × Nat)} :
    History (s.stagingPath address n).run t events result u ↔
      (∃ f, result = .error f ∧
        History (createDirectory (s.desk address)).run t events (.error f) u) ∨
      History (createDirectory (s.desk address)).run t events (.ok ()) u ∧
        result = .ok
          ((firstFree (s.stagedPath (s.desk address)) u (u.entries.length + 1) n).1,
            (firstFree (s.stagedPath (s.desk address)) u (u.entries.length + 1) n).2 + 1) := by
  have hstart : ∀ f : Path → FileTask (Path × Nat),
      FileTask.ofExcept (.ok (s.desk address)) >>= f = f (s.desk address) := fun _ => rfl
  rw [stagingPath, stagingDirectory_eq haddress, hstart, FileTask.history_bind_iff]
  apply or_congr Iff.rfl
  constructor
  · rintro ⟨first, _, t₁, second, rfl, hmade, hlook⟩
    obtain ⟨rfl, hresult, rfl⟩ := history_numbered_iff.mp hlook
    rw [List.append_nil]
    exact ⟨hmade, hresult⟩
  · rintro ⟨hmade, hresult⟩
    refine ⟨events, (), u, [], (List.append_nil events).symm, hmade, ?_⟩
    exact history_numbered_iff.mpr ⟨rfl, hresult, rfl⟩

/-- What is handed out depends on the rest of the files only when there is no free name. -/
theorem Plain.mirrored_stagingPath {n : Nat} {t t' u : FileTree} {events : List FileEvent}
    {result : Except Failure (Path × Nat)} (h : AlikeFrom s.programsDir t t')
    (hhistory : History (s.stagingPath address n).run t events result u)
    (hfree : ∀ path next, result = .ok (path, next) → u.exists? path = false) :
    Mirrored (AlikeFrom s.programsDir) (s.stagingPath address n).run t' events result u := by
  have hdesk := isBelow_desk (s := s) haddress
  have hmake : Blind (AlikeFrom s.programsDir) (createDirectory (s.desk address)).run :=
    FileTask.blind_during (AlikeFrom.blind_createDirectory hdesk)
  rcases (history_stagingPath_iff haddress).mp hhistory with ⟨f, rfl, hmade⟩ | ⟨hmade, rfl⟩
  · obtain ⟨events', u', hmade', hmirrors, hafter⟩ := hmake t t' h _ _ _ hmade
    exact ⟨events', u', (history_stagingPath_iff haddress).mpr (Or.inl ⟨f, rfl, hmade'⟩), hmirrors,
      hafter⟩
  · obtain ⟨events', u', hmade', hmirrors, hafter⟩ := hmake t t' h _ _ _ hmade
    have hsame : ∀ j, u'.exists? (s.stagedPath (s.desk address) j) =
        u.exists? (s.stagedPath (s.desk address) j) := by
      intro j
      rw [stagedPath_eq]
      exact hafter.exists? (hdesk.child (isPart_stagedName hs.toWellNamed j))
    have hfound := hfree _ _ rfl
    have heq := firstFree_congr hs.toWellNamed hsame hfound
    refine ⟨events', u', (history_stagingPath_iff haddress).mpr (Or.inr ⟨hmade', ?_⟩), hmirrors,
      hafter⟩
    rw [heq]

/-- As long as there are fewer files than names, a path that is handed out is free. -/
theorem Plain.findsFree (order : Order) {t u : FileTree} {events : List FileEvent}
    {answer : order.Answer} (h : History (order.act s address) t events answer u)
    (hfew : u.entries.length < nameCount) : order.FindsFree answer u := by
  cases order with
  | stagingPath n =>
      intro path next hok
      rcases (history_stagingPath_iff haddress).mp h with ⟨f, rfl, -⟩ | ⟨-, rfl⟩
      · cases hok
      · obtain ⟨rfl, -⟩ := Prod.mk.inj (Except.ok.inj hok)
        exact exists?_firstFree hs.toWellNamed hfew
  | _ => trivial

/-- What a store does for an address is decided by what is below the programs directory and by the way
there. -/
theorem Plain.mirrored (order : Order) (hfor : order.IsFor s address) {t t' u : FileTree}
    {events : List FileEvent} {answer : order.Answer} (h : AlikeFrom s.programsDir t t')
    (hhistory : History (order.act s address) t events answer u)
    (hfree : order.FindsFree answer u) :
    Mirrored (AlikeFrom s.programsDir) (order.act s address) t' events answer u := by
  cases order with
  | stagingPath n => exact hs.mirrored_stagingPath haddress h hhistory hfree
  | commit staged => exact hs.blind_commit hfor t t' h _ _ _ hhistory
  | discard staged => exact blind_discard (hs.isBelow_staged hfor) t t' h _ _ _ hhistory
  | evict => exact hs.blind_evict haddress t t' h _ _ _ hhistory
  | cleanStaging => exact blind_cleanStaging haddress t t' h _ _ _ hhistory
  | read => exact hs.blind_read haddress t t' h _ _ _ hhistory
  | hasArtifact => exact hs.blind_hasArtifact haddress t t' h _ _ _ hhistory

end Orders

end Sight

/-- What is no address is refused before the files are looked at. -/
theorem refused_of_not_isAddress (s : ArtifactStore) {address : String}
    (h : isAddress address = false) (n : Nat) (staged : Path) :
    let failure := Failure.ofCause (.invalidAddress address)
    s.stablePath address = .error failure ∧
      (s.stagingPath address n).run = pure (.error failure) ∧
      (s.commit staged address).run = pure (.error failure) ∧
      (s.evict address).run = pure (.error failure) ∧
      (s.cleanStaging address).run = pure (.error failure) ∧
      (s.read address).run = pure (.error failure) := by
  intro failure
  have hcheck : checkAddress address = .error failure := by
    rw [checkAddress, h, if_neg Bool.false_ne_true]
  have hstable : s.stablePath address = .error failure := by
    rw [stablePath, hcheck]
    rfl
  have hdirectory : s.stagingDirectory address = .error failure := by
    rw [stagingDirectory, hcheck]
    rfl
  refine ⟨hstable, ?_, ?_, ?_, ?_, ?_⟩
  · rw [stagingPath, hdirectory]
    rfl
  · rw [commit, hstable]
    rfl
  · rw [evict, hstable]
    rfl
  · rw [cleanStaging, hdirectory]
    rfl
  · rw [read, hstable]
    rfl

/-- **Addresses are kept apart.**  Under an accepted configuration, whatever a store does for an address,
whatever the system refuses on the way and wherever it is interrupted: the stable artifact of another
address, what may hold the debug symbols of that and all in its staging directory are as they were, and
what has changed is below the programs directory.  The steps it takes, what comes of them and the answer
are the same wherever the same is below the programs directory and the way there leads through
directories.  To hand out a path the store makes the directories on the way that are missing, and only
then something else can change; what these are is nobody's place unless the path of the programs
directory goes up again.  What is no address is refused, and the files are not touched. -/
theorem addresses_are_kept_apart {c : EngineConfig} (hvalid : c.validate = .ok ()) :
    let s := ofConfig c
    (∀ address, isAddress address = true → ∀ order : Order, order.IsFor s address →
      ∀ t events answer t', History (order.act s address) t events answer t' →
        (∀ now, (now = t' ∨ ∃ event ∈ events, event.after = now) →
          now.workingDirectory = t.workingDirectory ∧
          (∀ other, other ≠ address → ∀ l, s.Owned other t.workingDirectory l →
            now.node? l = t.node? l ∨ order.IsStaging ∧ s.MadeOnTheWay t now l) ∧
          ∀ l, now.node? l ≠ t.node? l →
            s.Below t.workingDirectory l ∨ order.IsStaging ∧ s.MadeOnTheWay t now l) ∧
        (order.FindsFree answer t' → ∀ elsewhere, AlikeFrom s.programsDir t elsewhere →
          Mirrored (AlikeFrom s.programsDir) (order.act s address) elsewhere events answer t')) ∧
    (".." ∉ c.programsDir.names → ∀ address wd l, s.OnTheWay wd l → ¬s.Owned address wd l) ∧
    ∀ address, isAddress address = false → ∀ n staged,
      let failure := Failure.ofCause (.invalidAddress address)
      s.stablePath address = .error failure ∧
        (s.stagingPath address n).run = pure (.error failure) ∧
        (s.commit staged address).run = pure (.error failure) ∧
        (s.evict address).run = pure (.error failure) ∧
        (s.cleanStaging address).run = pure (.error failure) ∧
        (s.read address).run = pure (.error failure) := by
  intro s
  have hs : s.Plain := plain_ofConfig hvalid
  refine ⟨?_, ?_, ?_⟩
  · intro address haddress order hfor t events answer t' h
    obtain ⟨hevents, hend⟩ := hs.keepsApart_of_order haddress order hfor h
    constructor
    · intro now hnow
      have hapart : s.KeepsApart address order.IsStaging t now := by
        rcases hnow with rfl | ⟨event, hevent, rfl⟩
        · exact hend
        · exact hevents event hevent
      refine ⟨hapart.workingDirectory, ?_, ?_⟩
      · intro other hother l howned
        rcases hapart.node l with hsame | ⟨-, hnobody⟩ | hmade
        · exact Or.inl hsame
        · exact absurd howned (hnobody other hother)
        · exact Or.inr hmade
      · intro l hchanged
        rcases hapart.node l with hsame | ⟨hbelow, -⟩ | hmade
        · exact absurd hsame hchanged
        · exact Or.inl hbelow
        · exact Or.inr hmade
    · intro hfree elsewhere halike
      exact hs.mirrored haddress order hfor halike h hfree
  · intro hup address wd l hway howned
    exact hway.not_below hup (hs.belongs_of_owned howned).below
  · intro address hnot n staged
    exact refused_of_not_isAddress s hnot n staged

section Lamp

/-- A lamp and a fan have been published, and something for the fan is staged. -/
def workshop : FileTree :=
  { lampShelves with
    entries := lampShelves.entries ++
      [(["p", "lamp.unit"], .file "lamp".toUTF8 false),
        (["p", "fan.unit"], .file "fan".toUTF8 false),
        (["p", "fan.unit.mdb"], .file "symbols".toUTF8 false),
        (["p", ".staging", "fan"], .directory)] }

/-- The workshop, and a file elsewhere. -/
def crowdedWorkshop : FileTree :=
  { workshop with entries := workshop.entries ++ [(["q"], .file "else".toUTF8 false)] }

theorem crowdedWorkshop_alike : AlikeFrom lampStore.programsDir workshop crowdedWorkshop := by
  have hnode : ∀ l : Location, l ≠ ["q"] → crowdedWorkshop.node? l = workshop.node? l := by
    intro l hl
    by_cases hroot : l = []
    · rw [hroot, node?_root, node?_root]
    · rw [node?, node?, if_neg hroot, if_neg hroot]
      apply Table.get?_append_of_forall_ne
      intro entry hentry
      rw [List.mem_singleton.mp hentry]
      exact hl.symm
  refine ⟨rfl, ?_, ?_⟩
  · intro before hbefore
    have hnames : lampStore.programsDir.names = ["p"] := by decide
    rw [hnames] at hbefore
    rcases List.prefix_concat_iff.mp (show before <+: [] ++ ["p"] from hbefore) with rfl | hnil
    · rw [kind?, kind?, hnode _ (by decide)]
    · rw [List.prefix_nil.mp hnil, kind?, kind?, hnode _ (by decide)]
  · intro name rest
    rw [destination_lampStore]
    apply hnode
    intro heq
    exact absurd (List.cons.inj heq).1 (by decide)

/-- When the lamp is evicted the fan is as it was, and a path for the lamp is handed out without regard
to what is elsewhere. -/
theorem fan_is_kept_from_the_lamp :
    let s := ofConfig (lampConfig ["mdb", "pdb"])
    (∃ events t', History (s.evict "lamp").run workshop events (.ok ()) t' ∧
      t'.node? ["p", "lamp.unit"] = none ∧
      t'.node? ["p", "fan.unit"] = some (.file "fan".toUTF8 false)) ∧
    ∃ events t', History (s.stagingPath "lamp" 0).run workshop events (.ok (lampStaged, 1)) t' ∧
      Mirrored (AlikeFrom s.programsDir) (s.stagingPath "lamp" 0).run crowdedWorkshop events
        (.ok (lampStaged, 1)) t' := by
  intro s
  have hvalid : (lampConfig ["mdb", "pdb"]).validate = .ok () := by decide
  obtain ⟨hapart, -, -⟩ := addresses_are_kept_apart hvalid
  have hlamp : isAddress "lamp" = true := by decide
  constructor
  · have hhistory := history_run (s.evict "lamp").run workshop
    have hok : (FileAction.run (s.evict "lamp").run workshop).1 = .ok () := by decide +kernel
    have hgone : (FileAction.run (s.evict "lamp").run workshop).2.node? ["p", "lamp.unit"] = none := by
      decide +kernel
    rw [hok] at hhistory
    have howned : s.Owned "fan" workshop.workingDirectory ["p", "fan.unit"] :=
      ⟨_, _, stablePath_eq (by decide), stagingDirectory_eq (by decide), s.stableAs "fan", by simp,
        by decide⟩
    obtain ⟨hkept, -⟩ := hapart "lamp" hlamp .evict trivial workshop _ _ _ hhistory
    obtain ⟨-, hothers, -⟩ := hkept _ (Or.inl rfl)
    refine ⟨_, _, hhistory, hgone, ?_⟩
    rcases hothers "fan" (by decide) _ howned with hsame | ⟨hstaging, -⟩
    · rw [hsame]
      decide
    · exact absurd hstaging id
  · have hhistory := history_run (s.stagingPath "lamp" 0).run workshop
    have hok : (FileAction.run (s.stagingPath "lamp" 0).run workshop).1 = .ok (lampStaged, 1) := by
      decide +kernel
    have hfew : (FileAction.run (s.stagingPath "lamp" 0).run workshop).2.entries.length <
        nameCount := by
      decide +kernel
    rw [hok] at hhistory
    have hfree := (plain_ofConfig hvalid).findsFree hlamp (.stagingPath 0) hhistory hfew
    obtain ⟨-, hsight⟩ := hapart "lamp" hlamp (.stagingPath 0) trivial workshop _ _ _ hhistory
    exact ⟨_, _, hhistory, hsight hfree crowdedWorkshop crowdedWorkshop_alike⟩

/-- A programs directory that is written as the way up from where another address has its artifact. -/
def windingConfig : EngineConfig :=
  { lampConfig ["mdb"] with programsDir := ⟨"p/b.unit/.."⟩ }

/-- An accepted configuration can have the way to the programs directory lead through the place of an
artifact.  Where it is missing, a directory is made there when a path is handed out for another address,
and so is the programs directory, which is not below itself. -/
theorem way_is_made_at_the_place_of_another :
    let s := ofConfig windingConfig
    windingConfig.validate = .ok () ∧ isAddress "a" = true ∧ isAddress "b" = true ∧ "a" ≠ "b" ∧
    ∃ stable events handed t', s.stablePath "b" = .ok stable ∧
      History (s.stagingPath "a" 0).run FileTree.empty events (.ok handed) t' ∧
      FileTree.empty.node? (stable.destination []) = none ∧
      t'.node? (stable.destination []) = some .directory ∧
      FileTree.empty.node? (s.programsDir.destination []) = none ∧
      t'.node? (s.programsDir.destination []) = some .directory := by
  intro s
  have hhistory := history_run (s.stagingPath "a" 0).run FileTree.empty
  have hok : (FileAction.run (s.stagingPath "a" 0).run FileTree.empty).1 =
      .ok (s.stagedAs "a" "0000000000000000", 1) := by
    decide +kernel
  rw [hok] at hhistory
  refine ⟨by decide, by decide, by decide, by decide, s.stableAs "b", _, _, _,
    stablePath_eq (by decide), hhistory, by decide, ?_, by decide, ?_⟩
  · decide +kernel
  · decide +kernel

end Lamp

end ArtifactStore

end Automation
