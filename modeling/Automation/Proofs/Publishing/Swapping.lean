import Automation.Proofs.Files.Histories
import Automation.Proofs.Publishing.Names

/-
Swaps of debug files.

A swap moves the debug file that is there out of the way and a staged one into its place, as far
as there are any.  Whatever has been done when it ends, the swaps it tells of are undone one after
the other, and each of them finds the files as its own steps left them.
-/

namespace Automation

namespace ArtifactStore

/-- What becomes of a debug file that is set aside: it is moved, if there is one. -/
inductive SetsAside (target kept : Path) (t : FileTree) : Option Path → FileTree → Prop where
  | absent (hnone : t.isFile target = false) : SetsAside target kept t none t
  | moved {t' : FileTree} (hfile : t.isFile target = true)
      (hrename : t.rename target kept = .ok t') : SetsAside target kept t (some kept) t'

/-- One swap: what is in the way is set aside, and then the staged file is moved, if there is
one. -/
inductive Swap (aside : Path) (i : Nat) (staged target : Path) (t : FileTree) :
    DebugSwap → FileTree → Prop where
  | skipped {previous : Option Path} {t' : FileTree}
      (haside : SetsAside target (aside.child (toString i)) t previous t')
      (hnone : t'.isFile staged = false) :
      Swap aside i staged target t ⟨target, previous, false⟩ t'
  | moved {previous : Option Path} {t₁ t' : FileTree}
      (haside : SetsAside target (aside.child (toString i)) t previous t₁)
      (hfile : t₁.isFile staged = true) (hrename : t₁.rename staged target = .ok t') :
      Swap aside i staged target t ⟨target, previous, true⟩ t'

/-- The ways a series of swaps can go, from a number on. -/
inductive Swapping (aside : Path) : Nat → List (Path × Path) → FileTree →
    List DebugSwap × Except Failure Unit → FileTree → Prop where
  | done {i : Nat} {t : FileTree} : Swapping aside i [] t ([], .ok ()) t
  /-- A debug file could not be set aside. -/
  | stuck {i : Nat} {staged target : Path} {rest : List (Path × Path)} {t : FileTree}
      (f : Failure) : Swapping aside i ((staged, target) :: rest) t ([], .error f) t
  /-- A staged debug file could not be moved. -/
  | unmoved {i : Nat} {staged target : Path} {rest : List (Path × Path)} {t t' : FileTree}
      {previous : Option Path} (f : Failure)
      (haside : SetsAside target (aside.child (toString i)) t previous t') :
      Swapping aside i ((staged, target) :: rest) t ([⟨target, previous, false⟩], .error f) t'
  | next {i : Nat} {staged target : Path} {rest : List (Path × Path)} {t t₁ t' : FileTree}
      {swap : DebugSwap} {swaps : List DebugSwap} {result : Except Failure Unit}
      (hswap : Swap aside i staged target t swap t₁)
      (hrest : Swapping aside (i + 1) rest t₁ (swaps, result) t') :
      Swapping aside i ((staged, target) :: rest) t (swap :: swaps, result) t'

open FileAction

section Histories

variable {target kept aside : Path} {t t' : FileTree} {events : List FileEvent}

theorem setsAside_of_history {result : Except Failure (Option Path)}
    (h : History (setAside target kept).run t events result t') :
    (∃ previous, result = .ok previous ∧ SetsAside target kept t previous t') ∨
      (∃ f, result = .error f) ∧ t' = t := by
  rcases FileTask.history_bind_iff.mp h with
    ⟨f, rfl, hfound⟩ | ⟨first, found, t₁, second, rfl, hfirst, hsecond⟩
  · obtain ⟨_, hok, _⟩ := FileTask.history_lift_iff.mp hfound
    cases hok
  · obtain ⟨_, hok, hlook⟩ := FileTask.history_lift_iff.mp hfirst
    cases hok
    obtain ⟨rfl, rfl, rfl⟩ := history_observe_iff.mp hlook
    split at hsecond
    · next hfile =>
      rcases FileTask.history_bind_iff.mp hsecond with
        ⟨f, rfl, hmove⟩ | ⟨third, _, t₂, fourth, rfl, hthird, hfourth⟩
      · rcases FileTask.history_during_iff.mp hmove with ⟨_, hok, _⟩ | ⟨e, _, hrefused⟩
        · cases hok
        · rcases history_perform_iff.mp hrefused with ⟨_, hok, _⟩ | ⟨_, _, rfl, _⟩
          · cases hok
          · exact Or.inr ⟨⟨f, rfl⟩, rfl⟩
      · obtain ⟨rfl, rfl, rfl⟩ := history_pure_iff.mp hfourth
        rcases FileTask.history_during_iff.mp hthird with ⟨_, _, hdone⟩ | ⟨_, herror, _⟩
        · rcases history_perform_iff.mp hdone with ⟨happly, _, _⟩ | ⟨_, herror, _⟩
          · exact Or.inl ⟨some kept, rfl, .moved hfile happly⟩
          · cases herror
        · cases herror
    · next hnone =>
      obtain ⟨rfl, rfl, rfl⟩ := history_pure_iff.mp hsecond
      exact Or.inl ⟨none, rfl, .absent (Bool.not_eq_true _ ▸ hnone)⟩

theorem swapping_of_history {i : Nat} {pairs : List (Path × Path)}
    {value : List DebugSwap × Except Failure Unit}
    (h : History (swapDebugFiles aside i pairs) t events value t') :
    Swapping aside i pairs t value t' := by
  induction pairs generalizing i t events value with
  | nil =>
      obtain ⟨_, rfl, rfl⟩ := history_pure_iff.mp h
      exact .done
  | cons pair rest ih =>
      obtain ⟨staged, target⟩ := pair
      rw [swapDebugFiles, history_bind_iff] at h
      obtain ⟨first, found, t₁, second, rfl, hfirst, hsecond⟩ := h
      rcases setsAside_of_history hfirst with ⟨previous, rfl, haside⟩ | ⟨⟨f, rfl⟩, rfl⟩
      · obtain ⟨third, there, t₂, fourth, rfl, hthird, hfourth⟩ := history_bind_iff.mp hsecond
        obtain ⟨rfl, rfl, rfl⟩ := history_observe_iff.mp hthird
        split at hfourth
        · next hfile =>
          obtain ⟨fifth, moved, t₃, sixth, rfl, hfifth, hsixth⟩ := history_bind_iff.mp hfourth
          rcases history_perform_iff.mp hfifth with ⟨happly, rfl, rfl⟩ | ⟨e, rfl, rfl, rfl⟩
          · obtain ⟨seventh, ⟨swaps, result⟩, t₄, eighth, rfl, hrest, hend⟩ :=
              history_bind_iff.mp hsixth
            obtain ⟨rfl, rfl, rfl⟩ := history_pure_iff.mp hend
            exact .next (.moved haside hfile happly) (ih hrest)
          · obtain ⟨rfl, rfl, rfl⟩ := history_pure_iff.mp hsixth
            exact .unmoved _ haside
        · next hnone =>
          obtain ⟨fifth, ⟨swaps, result⟩, t₃, sixth, rfl, hrest, hend⟩ :=
            history_bind_iff.mp hfourth
          obtain ⟨rfl, rfl, rfl⟩ := history_pure_iff.mp hend
          exact .next (.skipped haside (Bool.not_eq_true _ ▸ hnone)) (ih hrest)
      · obtain ⟨rfl, rfl, rfl⟩ := history_pure_iff.mp hsecond
        exact .stuck f

end Histories

/-- Where the files of a commit are moved: staged ones from a desk into the home of the stable ones,
and those that are in the way to a place aside.  The desk is two levels below the home and the place
aside one further down, so no two of the three have a name in common. -/
structure Bench where
  home : Path
  desk : Path
  aside : Path
  homeAt : Location
  deskAt : Location
  asideAt : Location
  /-- Stable files are called by the address and staged ones by the label. -/
  address : String
  label : String
  isAddress_address : isAddress address = true
  isAddress_label : isAddress label = true
  deskDepth : deskAt.length = homeAt.length + 2
  asideDepth : asideAt.length = homeAt.length + 3

namespace Bench

/-- A stable file and a staged one, by what follows the label, and where the one is kept that was
set aside in a swap. -/
def stable (b : Bench) (tail : String) : Path := b.home.child (b.address ++ tail)

def staged (b : Bench) (tail : String) : Path := b.desk.child (b.label ++ tail)

def kept (b : Bench) (i : Nat) : Path := b.aside.child (toString i)

def pair (b : Bench) (tail : String) : Path × Path := (b.staged tail, b.stable tail)

def stableAt (b : Bench) (tail : String) : Location := b.homeAt ++ [b.address ++ tail]

def stagedAt (b : Bench) (tail : String) : Location := b.deskAt ++ [b.label ++ tail]

def keptAt (b : Bench) (i : Nat) : Location := b.asideAt ++ [toString i]

/-- The three directories can be reached. -/
structure Stands (b : Bench) (t : FileTree) : Prop where
  home : t.Reaches b.home b.homeAt
  desk : t.Reaches b.desk b.deskAt
  aside : t.Reaches b.aside b.asideAt

/-- The places of staged files and of those that are set aside from a number on. -/
def Handled (b : Bench) (i : Nat) (l : Location) : Prop :=
  (∃ tail, l = b.stagedAt tail) ∨ ∃ j, i ≤ j ∧ l = b.keptAt j

section Places

variable {b : Bench} {t t' : FileTree} {tail other : String} {i j : Nat}

theorem isPart_stable (b : Bench) (h : '/' ∉ tail.toList) : IsPart (b.address ++ tail) :=
  isPart_label_append b.isAddress_address h

theorem isPart_staged (b : Bench) (h : '/' ∉ tail.toList) : IsPart (b.label ++ tail) :=
  isPart_label_append b.isAddress_label h

theorem asideAt_ne_nil (b : Bench) : b.asideAt ≠ [] := by
  intro hnil
  have hdepth := b.asideDepth
  rw [hnil] at hdepth
  simp at hdepth

theorem isPart_kept (i : Nat) : IsPart (toString i) :=
  (isName_of_isAddress (Environment.isAddress_toString i)).isPart

theorem stableAt_ne_stagedAt : b.stableAt tail ≠ b.stagedAt other := by
  intro heq
  have hlength := congrArg List.length heq
  rw [stableAt, stagedAt, List.length_append, List.length_append, b.deskDepth] at hlength
  simp at hlength

theorem stableAt_ne_keptAt : b.stableAt tail ≠ b.keptAt i := by
  intro heq
  have hlength := congrArg List.length heq
  rw [stableAt, keptAt, List.length_append, List.length_append, b.asideDepth] at hlength
  simp at hlength

theorem stagedAt_ne_keptAt : b.stagedAt tail ≠ b.keptAt i := by
  intro heq
  have hlength := congrArg List.length heq
  rw [stagedAt, keptAt, List.length_append, List.length_append, b.deskDepth, b.asideDepth]
    at hlength
  simp at hlength

theorem stableAt_inj (h : b.stableAt tail = b.stableAt other) : tail = other :=
  label_append_inj (List.singleton_inj.mp (List.append_cancel_left h))

theorem stagedAt_inj (h : b.stagedAt tail = b.stagedAt other) : tail = other :=
  label_append_inj (List.singleton_inj.mp (List.append_cancel_left h))

theorem keptAt_inj (h : b.keptAt i = b.keptAt j) : i = j :=
  Environment.toString_inj (List.singleton_inj.mp (List.append_cancel_left h))

/-- The desk is not in the way of a name in the home. -/
theorem not_deskAt_isPrefix (b : Bench) (tail : String) : ¬b.deskAt <+: b.stableAt tail := by
  intro hbelow
  have hlength := hbelow.length_le
  rw [b.deskDepth, stableAt, List.length_append] at hlength
  simp at hlength

theorem not_asideAt_isPrefix (b : Bench) (tail : String) : ¬b.asideAt <+: b.stableAt tail := by
  intro hbelow
  have hlength := hbelow.length_le
  rw [b.asideDepth, stableAt, List.length_append] at hlength
  simp at hlength

theorem not_handled_stableAt (i : Nat) (tail : String) : ¬b.Handled i (b.stableAt tail) := by
  rintro (⟨other, heq⟩ | ⟨j, _, heq⟩)
  · exact stableAt_ne_stagedAt heq
  · exact stableAt_ne_keptAt heq

theorem not_handled_keptAt (i : Nat) : ¬b.Handled (i + 1) (b.keptAt i) := by
  rintro (⟨other, heq⟩ | ⟨j, hj, heq⟩)
  · exact stagedAt_ne_keptAt heq.symm
  · have hsame := keptAt_inj heq
    omega

theorem Handled.of_succ {l : Location} (h : b.Handled (i + 1) l) : b.Handled i l := by
  rcases h with hstaged | ⟨j, hj, heq⟩
  · exact Or.inl hstaged
  · exact Or.inr ⟨j, by omega, heq⟩

theorem Stands.of_directories (h : b.Stands t) (hwd : t'.workingDirectory = t.workingDirectory)
    (hkept : ∀ l, t.node? l = some .directory → t'.node? l = some .directory) : b.Stands t' :=
  ⟨h.home.of_kept hwd hkept, h.desk.of_kept hwd hkept, h.aside.of_kept hwd hkept⟩

theorem Stands.moved {l m : Location} (h : b.Stands t) (hmoved : t.Moved t' l m) : b.Stands t' :=
  h.of_directories hmoved.workingDirectory fun other => (hmoved.directory_iff other).mpr

theorem Stands.agreesOff {places : Location → Prop} (h : b.Stands t)
    (hagrees : t.AgreesOff places t') : b.Stands t' :=
  h.of_directories hagrees.workingDirectory fun other => (hagrees.directory_iff other).mpr

section Seen

variable {content : ByteArray}

theorem Stands.locate_stable_iff (h : b.Stands t) (htail : '/' ∉ tail.toList) {l : Location} :
    t.locate (b.stable tail) = .ok l ↔
      FileTree.Takes b.home (b.address ++ tail) ∧ l = b.stableAt tail :=
  h.home.locate_iff (b.isPart_stable htail)

theorem Stands.locate_staged_iff (h : b.Stands t) (htail : '/' ∉ tail.toList) {l : Location} :
    t.locate (b.staged tail) = .ok l ↔
      FileTree.Takes b.desk (b.label ++ tail) ∧ l = b.stagedAt tail :=
  h.desk.locate_iff (b.isPart_staged htail)

theorem Stands.content?_stable_iff (h : b.Stands t) (htail : '/' ∉ tail.toList) :
    t.content? (b.stable tail) = some content ↔
      FileTree.Takes b.home (b.address ++ tail) ∧ t.contentAt? (b.stableAt tail) = some content :=
  h.home.content?_iff (b.isPart_stable htail)

theorem Stands.content?_staged_iff (h : b.Stands t) (htail : '/' ∉ tail.toList) :
    t.content? (b.staged tail) = some content ↔
      FileTree.Takes b.desk (b.label ++ tail) ∧ t.contentAt? (b.stagedAt tail) = some content :=
  h.desk.content?_iff (b.isPart_staged htail)

theorem Stands.isFile_stable_iff (h : b.Stands t) (htail : '/' ∉ tail.toList) :
    t.isFile (b.stable tail) = true ↔ FileTree.Takes b.home (b.address ++ tail) ∧
      ∃ content executable, t.node? (b.stableAt tail) = some (.file content executable) :=
  h.home.isFile_iff (b.isPart_stable htail)

theorem Stands.isFile_staged_iff (h : b.Stands t) (htail : '/' ∉ tail.toList) :
    t.isFile (b.staged tail) = true ↔ FileTree.Takes b.desk (b.label ++ tail) ∧
      ∃ content executable, t.node? (b.stagedAt tail) = some (.file content executable) :=
  h.desk.isFile_iff (b.isPart_staged htail)

theorem Stands.isDirectory_stable_iff (h : b.Stands t) (htail : '/' ∉ tail.toList) :
    t.isDirectory (b.stable tail) = true ↔ FileTree.Takes b.home (b.address ++ tail) ∧
      t.node? (b.stableAt tail) = some .directory :=
  h.home.isDirectory_iff (b.isPart_stable htail)

theorem Stands.isFile_kept_iff (h : b.Stands t) (i : Nat) :
    t.isFile (b.kept i) = true ↔ FileTree.Takes b.aside (toString i) ∧
      ∃ content executable, t.node? (b.keptAt i) = some (.file content executable) :=
  h.aside.isFile_iff (isPart_kept i)

/-- A stable file and what is kept of it go from one place to the other. -/
theorem Stands.moved_aside (h : b.Stands t) (htail : '/' ∉ tail.toList)
    (hfile : t.isFile (b.stable tail) = true)
    (hrename : t.rename (b.stable tail) (b.kept i) = .ok t') :
    FileTree.Takes b.aside (toString i) ∧ t.Moved t' (b.stableAt tail) (b.keptAt i) :=
  h.home.moved_of_rename h.aside (b.isPart_stable htail) (isPart_kept i) hfile hrename

theorem Stands.exists_aside (h : b.Stands t) (htail : '/' ∉ tail.toList)
    (hfile : t.isFile (b.stable tail) = true) (htakes : FileTree.Takes b.aside (toString i))
    (hfree : t.node? (b.keptAt i) ≠ some .directory) :
    ∃ t', t.rename (b.stable tail) (b.kept i) = .ok t' ∧
      t.Moved t' (b.stableAt tail) (b.keptAt i) :=
  h.home.exists_rename h.aside (b.isPart_stable htail) (isPart_kept i) hfile htakes hfree

theorem Stands.exists_back (h : b.Stands t) (htail : '/' ∉ tail.toList)
    (hfile : t.isFile (b.kept i) = true) (htakes : FileTree.Takes b.home (b.address ++ tail))
    (hfree : t.node? (b.stableAt tail) ≠ some .directory) :
    ∃ t', t.rename (b.kept i) (b.stable tail) = .ok t' ∧
      t.Moved t' (b.keptAt i) (b.stableAt tail) :=
  h.aside.exists_rename h.home (isPart_kept i) (b.isPart_stable htail) hfile htakes hfree

/-- A staged file that took the place of a stable one has moved there. -/
theorem Stands.moved_over (h : b.Stands t) (htail : '/' ∉ tail.toList)
    (hfile : t.isFile (b.staged tail) = true)
    (hrename : t.rename (b.staged tail) (b.stable tail) = .ok t') :
    FileTree.Takes b.home (b.address ++ tail) ∧ t.Moved t' (b.stagedAt tail) (b.stableAt tail) :=
  h.desk.moved_of_rename h.home (b.isPart_staged htail) (b.isPart_stable htail) hfile hrename

theorem Stands.exists_over (h : b.Stands t) (htail : '/' ∉ tail.toList)
    (hfile : t.isFile (b.staged tail) = true)
    (htakes : FileTree.Takes b.home (b.address ++ tail))
    (hfree : t.node? (b.stableAt tail) ≠ some .directory) :
    ∃ t', t.rename (b.staged tail) (b.stable tail) = .ok t' ∧
      t.Moved t' (b.stagedAt tail) (b.stableAt tail) :=
  h.desk.exists_rename h.home (b.isPart_staged htail) (b.isPart_stable htail) hfile htakes hfree

end Seen

end Places

end Bench

section Swaps

variable {b : Bench} {t t' t₁ t₂ : FileTree} {i : Nat} {tail : String} {previous : Option Path}
  {swap : DebugSwap}

/-- There was no debug file, or it has been moved to where it is kept. -/
theorem SetsAside.none_or_moved (h : SetsAside (b.stable tail) (b.kept i) t previous t')
    (hstands : b.Stands t) (htail : '/' ∉ tail.toList) :
    (previous = none ∧ t.isFile (b.stable tail) = false ∧ t' = t) ∨
      (previous = some (b.kept i) ∧ t.isFile (b.stable tail) = true ∧
        FileTree.Takes b.aside (toString i) ∧ t.Moved t' (b.stableAt tail) (b.keptAt i)) := by
  cases h with
  | absent hnone => exact Or.inl ⟨rfl, hnone, rfl⟩
  | moved hfile hrename =>
      exact Or.inr ⟨rfl, hfile, hstands.moved_aside htail hfile hrename⟩

theorem SetsAside.stands (h : SetsAside (b.stable tail) (b.kept i) t previous t')
    (hstands : b.Stands t) (htail : '/' ∉ tail.toList) : b.Stands t' := by
  rcases h.none_or_moved hstands htail with ⟨_, _, rfl⟩ | ⟨_, _, _, hmoved⟩
  · exact hstands
  · exact hstands.moved hmoved

/-- After that there is no file in the way. -/
theorem SetsAside.isFile_stable (h : SetsAside (b.stable tail) (b.kept i) t previous t')
    (hstands : b.Stands t) (htail : '/' ∉ tail.toList) : t'.isFile (b.stable tail) = false := by
  rcases h.none_or_moved hstands htail with ⟨_, hnone, rfl⟩ | ⟨_, _, _, hmoved⟩
  · exact hnone
  · rw [← Bool.not_eq_true]
    intro hfile
    obtain ⟨_, _, _, hnode⟩ := ((hstands.moved hmoved).isFile_stable_iff htail).mp hfile
    rw [hmoved.node?_source Bench.stableAt_ne_keptAt] at hnode
    cases hnode

theorem SetsAside.free (h : SetsAside (b.stable tail) (b.kept i) t previous t')
    (hstands : b.Stands t) (htail : '/' ∉ tail.toList)
    (htakes : FileTree.Takes b.home (b.address ++ tail))
    (hdirectory : t'.node? (b.stableAt tail) ≠ some .directory) :
    t'.node? (b.stableAt tail) = none := by
  cases hnode : t'.node? (b.stableAt tail) with
  | none => rfl
  | some node =>
      cases node with
      | directory => exact absurd hnode hdirectory
      | file content executable =>
          have hfile := ((h.stands hstands htail).isFile_stable_iff htail).mpr
            ⟨htakes, content, executable, hnode⟩
          rw [h.isFile_stable hstands htail] at hfile
          cases hfile

theorem Swap.stands (h : Swap b.aside i (b.staged tail) (b.stable tail) t swap t')
    (hstands : b.Stands t) (htail : '/' ∉ tail.toList) : b.Stands t' := by
  cases h with
  | skipped haside hnone => exact haside.stands hstands htail
  | moved haside hfile hrename =>
      have hstands₁ := haside.stands hstands htail
      exact hstands₁.moved (hstands₁.moved_over htail hfile hrename).2

end Swaps

section Undo

variable {b : Bench} {t t' t₁ t₂ : FileTree} {i : Nat} {tail : String} {previous : Option Path}
  {swap : DebugSwap}

theorem run_removeIfExists_of_ok {p : Path} (h : t.unlink p = .ok t') :
    (FileAction.removeIfExists p).run t = (.ok (), t') := by
  have happly : (FileOp.unlink p).apply t = .ok t' := h
  rw [FileAction.removeIfExists, run_bind, run_perform_ok happly]
  rfl

theorem run_restoreDebugFiles_cons (swap : DebugSwap) (rest : List DebugSwap) (t : FileTree) :
    (restoreDebugFiles (swap :: rest)).run t =
      (restoreDebugFile swap).run ((restoreDebugFiles rest).run t).2 := by
  rw [restoreDebugFiles, restoreDebugFiles, List.reverse_cons]
  change (forM (rest.reverse ++ [swap]) restoreDebugFile).run t = _
  rw [List.forM_append, run_bind]
  simp

/-- Once the file that was moved in is removed, what was set aside is put back as ever. -/
theorem run_restoreDebugFile_of_installed {target : Path} (h : t.unlink target = .ok t') :
    (restoreDebugFile ⟨target, previous, true⟩).run t =
      (restoreDebugFile ⟨target, previous, false⟩).run t' := by
  rw [restoreDebugFile, restoreDebugFile]
  simp [run_removeIfExists_of_ok h]

theorem run_restoreDebugFile_of_kept {target kept : Path} (h : t.rename kept target = .ok t') :
    (restoreDebugFile ⟨target, some kept, false⟩).run t = ((), t') := by
  have happly : (FileOp.rename kept target).apply t = .ok t' := h
  change (perform (.rename kept target) >>= fun _ => pure ()).run t = _
  rw [run_bind, run_perform_ok happly]
  rfl

/-- A debug file that was set aside is put back. -/
theorem SetsAside.agreesOff_restore (h : SetsAside (b.stable tail) (b.kept i) t previous t₁)
    (hstands : b.Stands t) (htail : '/' ∉ tail.toList)
    (hagrees : t₁.AgreesOff (b.Handled (i + 1)) t₂) :
    t.AgreesOff (b.Handled i)
      ((restoreDebugFile ⟨b.stable tail, previous, false⟩).run t₂).2 := by
  rcases h.none_or_moved hstands htail with ⟨rfl, _, rfl⟩ | ⟨rfl, hfile, hkept, hmoved⟩
  · exact hagrees.mono fun l hl => hl.of_succ
  · obtain ⟨htakes, content, executable, hnode⟩ := (hstands.isFile_stable_iff htail).mp hfile
    have hstands₂ := (hstands.moved hmoved).agreesOff hagrees
    have hkeptNode : t₂.node? (b.keptAt i) = some (.file content executable) := by
      rw [hagrees.node _ (Bench.not_handled_keptAt i), hmoved.node?_target, hnode]
    have hfree : t₂.node? (b.stableAt tail) = none := by
      rw [hagrees.node _ (Bench.not_handled_stableAt _ tail),
        hmoved.node?_source Bench.stableAt_ne_keptAt]
    have hkeptFile := (hstands₂.isFile_kept_iff i).mpr ⟨hkept, content, executable, hkeptNode⟩
    obtain ⟨t', hrename, hmovedBack⟩ := hstands₂.exists_back htail hkeptFile htakes (by simp [hfree])
    rw [run_restoreDebugFile_of_kept hrename]
    refine (hmoved.undo_moved hagrees hmovedBack (Bench.not_handled_keptAt i)).mono ?_
    rintro l (hl | rfl)
    · exact hl.of_succ
    · exact Or.inr ⟨i, Nat.le_refl i, rfl⟩

/-- A swap that is the last one not undone is undone. -/
theorem Swap.agreesOff_restore (h : Swap b.aside i (b.staged tail) (b.stable tail) t swap t₁)
    (hstands : b.Stands t) (htail : '/' ∉ tail.toList)
    (hagrees : t₁.AgreesOff (b.Handled (i + 1)) t₂) :
    t.AgreesOff (b.Handled i) ((restoreDebugFile swap).run t₂).2 := by
  cases h with
  | skipped haside hnone => exact haside.agreesOff_restore hstands htail hagrees
  | moved haside hfile hrename =>
      have hstands₁ := haside.stands hstands htail
      obtain ⟨htakes, hmoved⟩ := hstands₁.moved_over htail hfile hrename
      have hfree := haside.free hstands htail htakes hmoved.free
      -- What was moved in is still there.
      have hstands₂ := (hstands₁.moved hmoved).agreesOff hagrees
      obtain ⟨content, executable, hnode⟩ := hmoved.file
      have htarget := hagrees.node _ (Bench.not_handled_stableAt _ tail)
      rw [hmoved.node?_target, hnode] at htarget
      have hunlink := FileTree.unlink_of_locate
        ((hstands₂.locate_stable_iff htail).mpr ⟨htakes, rfl⟩) htarget
      rw [run_restoreDebugFile_of_installed hunlink]
      refine haside.agreesOff_restore hstands htail ?_
      exact hmoved.undo_erase hfree hagrees (Or.inl ⟨_, rfl⟩)
        (Bench.not_handled_stableAt _ tail)

/-- Undone from the last swap on, a series of swaps leaves everything as it was, save for the
staged files and what is below the directory for those that were set aside. -/
theorem Swapping.agreesOff_restore {tails : List String}
    {value : List DebugSwap × Except Failure Unit}
    (h : Swapping b.aside i (tails.map b.pair) t value t') (hstands : b.Stands t)
    (htails : ∀ tail ∈ tails, '/' ∉ tail.toList) :
    t.AgreesOff (b.Handled i) ((restoreDebugFiles value.1).run t').2 := by
  induction tails generalizing i t value with
  | nil =>
      cases h with
      | done => exact .refl _ _
  | cons tail rest ih =>
      have htail := htails tail List.mem_cons_self
      cases h with
      | stuck f => exact .refl _ _
      | unmoved f haside =>
          rw [run_restoreDebugFiles_cons]
          exact haside.agreesOff_restore hstands htail (.refl _ _)
      | next hswap hrest =>
          rw [run_restoreDebugFiles_cons]
          refine hswap.agreesOff_restore hstands htail ?_
          exact ih hrest (hswap.stands hstands htail) fun other hother =>
            htails other (List.mem_cons_of_mem tail hother)

end Undo

end ArtifactStore

end Automation
