import Automation.Proofs.Publishing.Course

/-
Commits that fail.

A commit that fails has put back what it moved, so that nothing outside the staging directory of its
address is changed, and the directory it made for what it set aside is gone.  All this takes is that
its undoing steps are not refused.
-/

namespace Automation

namespace ArtifactStore

open FileAction

/-- The steps that undo others: to remove a file that was moved in, and to move one back. -/
def IsUndo (aside : Path) : FileOp → Prop
  | .unlink _ => True
  | .rename old _ => ∃ i : Nat, old = aside.child (toString i)
  | _ => False

section Undo

variable {aside : Path} {i : Nat} {pairs : List (Path × Path)} {t t' : FileTree}
  {value : List DebugSwap × Except Failure Unit}

theorem SetsAside.kept {target kept : Path} {previous : Option Path}
    (h : SetsAside target kept t previous t') : ∀ p, previous = some p → p = kept := by
  cases h with
  | absent hnone => exact fun p hp => by cases hp
  | moved hfile hrename => exact fun p hp => (Option.some.inj hp).symm

/-- A swap is one of a pair, and what is put back comes from the directory for what is set
aside. -/
theorem Swapping.of_mem (h : Swapping aside i pairs t value t') :
    ∀ swap ∈ value.1, (∃ pair ∈ pairs, swap.target = pair.2) ∧
      ∀ p, swap.previous = some p → ∃ n : Nat, p = aside.child (toString n) := by
  induction h with
  | done => simp
  | stuck f => simp
  | unmoved f haside =>
      exact List.forall_mem_singleton.mpr
        ⟨⟨_, List.mem_cons_self, rfl⟩, fun p hp => ⟨_, haside.kept p hp⟩⟩
  | next hswap hrest ih =>
      refine List.forall_mem_cons.mpr ⟨?_, fun swap hswap => ?_⟩
      · cases hswap with
        | skipped haside hnone =>
            exact ⟨⟨_, List.mem_cons_self, rfl⟩, fun p hp => ⟨_, haside.kept p hp⟩⟩
        | moved haside hfile hrename =>
            exact ⟨⟨_, List.mem_cons_self, rfl⟩, fun p hp => ⟨_, haside.kept p hp⟩⟩
      · obtain ⟨⟨pair, hpair, htarget⟩, hkept⟩ := ih swap hswap
        exact ⟨⟨pair, List.mem_cons_of_mem _ hpair, htarget⟩, hkept⟩

theorem tries_restoreDebugFiles {kind : FileOp → Prop} {swaps : List DebugSwap}
    (hremove : ∀ swap ∈ swaps, kind (.unlink swap.target))
    (hback : ∀ swap ∈ swaps, ∀ p, swap.previous = some p → kind (.rename p swap.target)) :
    (restoreDebugFiles swaps).Tries kind := by
  refine tries_forM fun swap hswap => ?_
  have hmem := List.mem_reverse.mp hswap
  have hunlinked : (FileAction.removeIfExists swap.target).Tries kind :=
    FileAction.tries_removeIfExists (hremove _ hmem)
  obtain ⟨target, previous, installed⟩ := swap
  cases previous with
  | none =>
      cases installed with
      | false => exact tries_pure ()
      | true => exact hunlinked.bind fun _ => tries_pure ()
  | some p =>
      have hput : (do let _ ← perform (.rename p target) : FileAction Unit).Tries kind :=
        (tries_perform (hback _ hmem p rfl)).bind fun _ => tries_pure ()
      cases installed with
      | false => exact hput
      | true => exact hunlinked.bind fun _ => hput

end Undo

section Failed

variable {s : ArtifactStore} {address label : String} {staged : Path} {b : Bench}
  {t t' : FileTree} {events : List FileEvent} {f : Failure}

/-- A commit without a staged artifact does nothing. -/
theorem CommitCourse.of_missing {stable : Path} {result : Except Failure Unit}
    (h : CommitCourse s staged stable t events result t') (hnone : t.isFile staged = false) :
    events = [] ∧ t' = t := by
  have hnot : ¬t.isFile staged = true := by simp [hnone]
  cases h with
  | missing f hnone => exact ⟨rfl, rfl⟩
  | unprepared f hfile hmade => exact absurd hfile hnot
  | undone f hfile hmade hswapped htried hrestored hclosing => exact absurd hfile hnot
  | published hfile hmade hswapped hrename hclosing => exact absurd hfile hnot

/-- After a commit that failed nothing is changed but in the staging directory of its address, and
what it made there for itself is gone. -/
structure RolledBack (b : Bench) (t : FileTree) (events : List FileEvent) (t' : FileTree) :
    Prop where
  workingDirectory : t'.workingDirectory = t.workingDirectory
  node : ∀ l, ¬b.deskAt <+: l → t'.node? l = t.node? l
  aside : (∀ event ∈ events, event.op = .removeTree b.aside → event.outcome = .ok ()) →
    t.node? b.asideAt = none → t'.node? b.asideAt = none

theorem RolledBack.refl : RolledBack b t events t :=
  ⟨rfl, fun _ _ => rfl, fun _ hfree => hfree⟩

theorem Bench.Handled.deskAt_isPrefix {i : Nat} {l : Location} (h : b.Handled i l)
    (hplace : b.deskAt <+: b.asideAt) : b.deskAt <+: l := by
  rcases h with ⟨tail, rfl⟩ | ⟨j, _, rfl⟩
  · exact List.prefix_append _ _
  · exact hplace.trans (List.prefix_append _ _)

/-- To clear the directory away changes nothing outside of it. -/
theorem cleared_of_history {removal : Except OsError Unit}
    (haside : b.aside.destination t.workingDirectory = b.asideAt)
    (hclosing : History (perform (.removeTree b.aside)) t events removal t') :
    t'.workingDirectory = t.workingDirectory ∧
      (∀ l, ¬b.asideAt <+: l → t'.node? l = t.node? l) ∧
        ((∀ event ∈ events, event.outcome = .ok ()) →
          ∀ l, b.asideAt <+: l → t'.node? l = none) := by
  rcases history_perform_iff.mp hclosing with ⟨happly, rfl, rfl⟩ | ⟨e, rfl, rfl, rfl⟩
  · obtain rfl := FileTree.removeTree_ok happly
    rw [haside]
    refine ⟨rfl, fun l hl => ?_, fun _ l hl => ?_⟩
    · exact FileTree.node?_eraseBelow_other hl
    · rw [FileTree.node?_eraseBelow_of_ne b.asideAt_ne_nil, if_pos hl]
  · refine ⟨rfl, fun _ _ => rfl, fun hok => ?_⟩
    have herror := hok _ List.mem_cons_self
    cases herror

theorem CommitCourse.rolledBack (hlayout : s.Layout address label)
    (hdesk : t.Reaches (s.desk address) (hlayout.bench t.workingDirectory).deskAt)
    (h : CommitCourse s (s.stagedAs address label) (s.stableAs address) t events (.error f) t')
    (hundo : ∀ event ∈ events, IsUndo (asidePath (s.stagedAs address label)) event.op →
      event.IsNatural) : RolledBack (hlayout.bench t.workingDirectory) t events t' := by
  cases h with
  | missing f hnone => exact .refl
  | unprepared f hfile hmade =>
      rw [hlayout.aside_eq] at hmade
      obtain rfl := (making_createDirectory hdesk hlayout.isName_aside hmade).refused _ rfl
      exact .refl
  | @undone made swapped tried restored closing t₁ t₂ t₃ _ swaps outcome removal _ hfile hmade
      hswapped htried hrestored hclosing =>
      obtain ⟨hstands, hmaking⟩ := hlayout.prepared hdesk hmade
      rw [hlayout.debugPairs_eq t.workingDirectory] at hswapped
      have hswapping := swapping_of_history hswapped
      have htries : (restoreDebugFiles swaps).Tries
          (IsUndo (asidePath (s.stagedAs address label))) :=
        tries_restoreDebugFiles (fun _ _ => trivial) fun swap hswap p hp =>
          (hswapping.of_mem swap hswap).2 p hp
      have hrun := hrestored.run_eq fun event hevent =>
        hundo event (by simp [hevent]) (hrestored.kind_of_mem htries event hevent)
      have hagrees := Swapping.agreesOff_restore (b := hlayout.bench t.workingDirectory) hswapping
        hstands hlayout.noSlash_of_mem
      rw [hrun] at hagrees
      have hwd := hagrees.workingDirectory.trans hmaking.workingDirectory
      have hdestination := hlayout.destination_aside t₃.workingDirectory
      rw [hwd] at hdestination
      have hdeskAside : (hlayout.bench t.workingDirectory).deskAt <+:
          (hlayout.bench t.workingDirectory).asideAt := by
        rw [hlayout.asideAt_eq]
        exact List.prefix_append _ _
      obtain ⟨hwd', hkept, hgone⟩ := cleared_of_history
        (b := hlayout.bench t.workingDirectory) (hwd ▸ hdestination) hclosing
      refine ⟨hwd'.trans hwd, fun l hl => ?_, fun hremoved _ => ?_⟩
      · have haside : ¬(hlayout.bench t.workingDirectory).asideAt <+: l :=
          fun hbelow => hl (hdeskAside.trans hbelow)
        rw [hkept l haside, hagrees.node l fun hplaced => hl (hplaced.deskAt_isPrefix hdeskAside),
          hmaking.node?_other fun heq => haside (heq ▸ List.prefix_rfl)]
      · refine hgone (fun event hevent => hremoved event (by simp [hevent]) ?_) _ List.prefix_rfl
        exact (hclosing.kind_of_mem (tries_perform rfl) event hevent).symm

end Failed

section Lamp

/-- A store of one debug extension. -/
def lampStore : ArtifactStore := ⟨⟨"p"⟩, "unit", ["mdb"]⟩

theorem lampStore_wellNamed : lampStore.WellNamed := by
  constructor
  · decide
  · decide

/-- The first path that is handed out for a compile of the lamp. -/
def lampStaged : Path := ⟨"p/.staging/lamp/0000000000000000.unit"⟩

/-- The directories of the store, and nothing in them. -/
def lampShelves : FileTree :=
  { workingDirectory := []
    entries :=
      [(["p"], .directory), (["p", ".staging"], .directory),
        (["p", ".staging", "lamp"], .directory)] }

theorem sizeBelow_staging : (lampStore.programsDir.child stagingName).sizeBelow = 11 := by
  decide

theorem destination_lampStore (wd : Location) :
    lampStore.programsDir.destination wd = wd ++ ["p"] := by
  have hnames : lampStore.programsDir.names = ["p"] := by decide
  have horigin : lampStore.programsDir.origin wd = wd := if_neg (by decide)
  rw [Path.destination, hnames, horigin]
  rfl

theorem reaches_staging {t : FileTree} (hwd : t.workingDirectory = [])
    (hprograms : t.node? ["p"] = some .directory)
    (hstaging : t.node? ["p", ".staging"] = some .directory) :
    t.Reaches (lampStore.programsDir.child stagingName) ["p", ".staging"] := by
  have hnames : lampStore.programsDir.names = ["p"] := by decide
  have hreaches : t.Reaches lampStore.programsDir ["p"] := by
    refine ⟨by decide, ?_, hprograms, ?_⟩
    · rw [hnames, Path.origin, hwd]
      exact ⟨FileTree.node?_root _, by decide, trivial⟩
    · rw [destination_lampStore, hwd]
      rfl
  exact hreaches.child isName_stagingName (by decide) hstaging

/-- What a store of this directory hands out first, where nothing has been staged yet. -/
theorem handsOut_beside_lamp {s : ArtifactStore} {address : String}
    (h : s.Layout address "0000000000000000") (hprograms : s.programsDir = lampStore.programsDir)
    (hsize : address.utf8ByteSize ≤ 250) :
    s.HandsOut address (s.stagedAs address "0000000000000000") := by
  have hlabel : "0000000000000000" = String.ofList (freshName stagedWidth 0) := by decide
  have hreaches : (⟨[], lampShelves.entries.take 2⟩ : FileTree).Reaches
      (s.programsDir.child stagingName) ["p", ".staging"] := by
    rw [hprograms]
    exact reaches_staging rfl (by decide) (by decide)
  refine handsOut_first h hlabel hreaches ⟨?_, ?_⟩ ?_
  · rw [FileTree.nameLimit]
    omega
  · rw [Path.size_child (isName_of_isAddress h.address), hprograms, sizeBelow_staging,
      FileTree.pathLimit]
    omega
  · rintro _ ⟨rest, rfl⟩
    simp [lampShelves, FileTree.node?, Table.get?]

theorem lampStore_handsOut : lampStore.HandsOut "lamp" lampStaged := by
  have hstaged : lampStaged = lampStore.stagedAs "lamp" "0000000000000000" := by decide
  rw [hstaged]
  exact handsOut_beside_lamp ⟨lampStore_wellNamed, by decide, by decide, by decide⟩ rfl (by decide)

/-- A lamp was compiled with its symbols.  The one before had left some under another name, and a
directory is in the way of the artifact. -/
def blockedLamp : FileTree :=
  { lampShelves with
    entries := lampShelves.entries ++
      [(["p", "lamp.unit"], .directory),
        (["p", "lamp.mdb"], .file "old symbols".toUTF8 false),
        (["p", ".staging", "lamp", "0000000000000000.unit"], .file "new".toUTF8 false),
        (["p", ".staging", "lamp", "0000000000000000.unit.mdb"],
          .file "new symbols".toUTF8 false)] }

/-- A step that moves what has a name, whatever has been made of it. -/
def isMoveOf (p : Path) : FileOp → Bool
  | .rename old _ => old = p
  | _ => false

/-- A step that removes a file. -/
def isRemoval : FileOp → Bool
  | .unlink _ => true
  | _ => false

theorem lampStaged_ne_kept (i : Nat) : lampStaged ≠ (asidePath lampStaged).child (toString i) := by
  intro heq
  have hsize := congrArg (fun p : Path => p.text.utf8ByteSize) heq
  have hname := isName_of_isAddress (Environment.isAddress_toString i)
  have hbelow : lampStaged.text.utf8ByteSize < (asidePath lampStaged).sizeBelow := by
    decide
  simp only [Path.size_child hname] at hsize
  omega

end Lamp

end ArtifactStore

end Automation
