import Automation.Config.File
import Automation.Proofs.Config.Written
import Automation.Proofs.Files.Endings
import Automation.Proofs.Files.Soundness
import Automation.Proofs.Files.Sparing
import Automation.Proofs.Files.Ways

/-
Saving a configuration.

A save makes the directories on the way, writes the temporary file beside the target and moves it over.
Before the move nothing is changed but directories that were missing and the temporary file, which is never
in the place of the target.  After it the target holds all that was written, and that is read back.
-/

namespace Automation

open FileTree FileAction

namespace EngineConfig

variable {path : Path} {c : EngineConfig} {t t' now next : FileTree} {l : Location}
  {events : List FileEvent} {result : Except Failure Unit}

section Temporary

/-- The stem of a name with the extension of a temporary file ends in the first part of that. -/
theorem name_ne_temporary (name : String) : (Path.splitName name).1 ++ "." ++ "toml.tmp" ≠ name := by
  intro hsame
  generalize hstem : (Path.splitName name).1 = stem at hsame
  have hname : name = stem ++ ".toml" ++ "." ++ "tmp" := by
    rw [← hsame, String.append_assoc, String.append_assoc, String.append_assoc]
    rfl
  have hempty : stem ++ ".toml" ≠ "" := fun hempty => by
    simpa using congrArg String.toList hempty
  rw [hname, Path.splitName_append hempty (by decide)] at hstem
  have hlengths := congrArg String.length hstem
  rw [String.length_append] at hlengths
  have hlong : ".toml".length = 5 := rfl
  omega

/-- The temporary file has another name than the target, or no name of its own, and so leads elsewhere. -/
theorem destination_temporaryPath_ne (hname : path.fileName? ≠ none) (wd : Location) :
    (temporaryPath path).destination wd ≠ path.destination wd := by
  obtain ⟨name, hname⟩ := Option.ne_none_iff_exists'.mp hname
  obtain ⟨front, hends⟩ := Path.exists_endsIn hname
  rw [hends.destination wd]
  have htemporary := hends.withExtension (show "toml.tmp" ≠ "" by decide) (by decide)
  rw [← temporaryPath] at htemporary
  rcases htemporary with hnamed | hup
  · intro heq
    rw [hnamed.destination wd] at heq
    exact name_ne_temporary name (by simpa using List.append_cancel_left heq)
  · intro heq
    rw [Path.destination_up hends.ends hup] at heq
    have hlengths := congrArg List.length heq
    rw [List.length_dropLast, List.length_append, List.length_singleton] at hlengths
    omega

theorem temporaryPath_ne (hname : path.fileName? ≠ none) : temporaryPath path ≠ path := by
  intro heq
  have hne := destination_temporaryPath_ne hname []
  rw [heq] at hne
  exact hne rfl

end Temporary

section Preparing

/-- What has become of the files as long as the temporary file has not been moved: there are new directories
on the way to the directory of the target, and the temporary file. -/
structure Prepared (path : Path) (t now : FileTree) : Prop where
  workingDirectory : now.workingDirectory = t.workingDirectory
  directory : ∀ l, t.node? l = some .directory → now.node? l = some .directory
  node : ∀ l, l ≠ (temporaryPath path).destination t.workingDirectory →
    now.node? l = t.node? l ∨ t.node? l = none ∧ now.node? l = some .directory ∧
      ∃ directory, directoryOf? path = some directory ∧ directory.Crosses t.workingDirectory l

theorem Prepared.refl (path : Path) (t : FileTree) : Prepared path t t :=
  ⟨rfl, fun _ h => h, fun _ _ => Or.inl rfl⟩

theorem Prepared.of_paved {directory : Path} (hdirectory : directoryOf? path = some directory)
    (h : directory.Paved t now) : Prepared path t now := by
  refine ⟨h.workingDirectory, fun _ => h.directory, fun l _ => ?_⟩
  rcases h.node l with hkept | ⟨hfree, hmade, hcrosses⟩
  · exact Or.inl hkept
  · exact Or.inr ⟨hfree, hmade, directory, hdirectory, hcrosses⟩

/-- To write the temporary file changes nothing elsewhere. -/
theorem Prepared.write {content : ByteArray} (h : Prepared path t now)
    (happly : (FileOp.write (temporaryPath path) content).apply now = .ok next) :
    Prepared path t next := by
  obtain ⟨hwd, hdirectory, hnode⟩ := agreesOff_of_update happly
  refine ⟨hwd.trans h.workingDirectory, fun l hl => (hdirectory l).mpr (h.directory l hl),
    fun l hl => ?_⟩
  rw [hnode l (by rwa [h.workingDirectory])]
  exact h.node l hl

/-- What becomes of the preparations, and what there is before the move. -/
theorem prepared_of_history {directory : Path} {made : Except OsError Unit}
    (hdirectory : directoryOf? path = some directory)
    (h : History (createDirectory directory) t events made t') :
    Prepared path t t' ∧ ∀ event ∈ events, Prepared path t event.after := by
  obtain ⟨hend, hevents⟩ := paved_of_history h
  exact ⟨.of_paved hdirectory hend, fun event hevent => .of_paved hdirectory (hevents event hevent)⟩

/-- Nothing has been moved. -/
def Unmoved (path : Path) (t : FileTree) (events : List FileEvent) (t' : FileTree) : Prop :=
  Prepared path t t' ∧ ∀ event ∈ events, Prepared path t event.after

/-- The temporary file, which had all that is written for a configuration, was moved to the target. -/
def Moved (path : Path) (c : EngineConfig) (t : FileTree) (events : List FileEvent) (t' : FileTree) : Prop :=
  ∃ before content executable, Prepared path t before ∧ content = (c.written ++ "\n").toUTF8 ∧
    before.node? ((temporaryPath path).destination before.workingDirectory) =
      some (.file content executable) ∧
    before.rename (temporaryPath path) path = .ok t' ∧
    ∀ event ∈ events, Prepared path t event.after ∨ event.after = t'

/-- How a save goes on once the directory is made. -/
theorem replace_cases {wrote replaced : Activity} (hprepared : Prepared path t now)
    (h : History (do
      FileTask.during wrote (perform (.write (temporaryPath path) (c.written ++ "\n").toUTF8))
      FileTask.during replaced (perform (.rename (temporaryPath path) path)) : FileTask Unit).run
        now events result t') :
    result ≠ .ok () ∧ Unmoved path t events t' ∨ result = .ok () ∧ Moved path c t events t' := by
  rcases FileTask.history_during_bind_iff.mp h with ⟨e, rfl, hwrite⟩ |
    ⟨first, _, t₁, second, rfl, hwrite, hrename⟩
  · rcases history_perform_iff.mp hwrite with ⟨-, hok, -⟩ | ⟨e, -, rfl, rfl⟩
    · cases hok
    · exact Or.inl ⟨by simp, hprepared, by simpa using hprepared⟩
  · rcases history_perform_iff.mp hwrite with ⟨happly, -, rfl⟩ | ⟨e, hok, -, -⟩
    · have hwritten := hprepared.write happly
      rcases FileTask.history_during_perform_iff.mp hrename with ⟨hmove, rfl, rfl⟩ | ⟨e, rfl, rfl, rfl⟩
      · obtain ⟨executable, hfile⟩ := file_of_write happly
        rw [← (spared_of_apply happly).1] at hfile
        exact Or.inr ⟨rfl, t₁, _, executable, hwritten, rfl, hfile, hmove, by simp [hwritten]⟩
      · exact Or.inl ⟨by simp, hwritten, by simpa using hwritten⟩
    · cases hok

/-- A save fails while nothing has been moved, or it moves all that is written for a good configuration. -/
theorem save_cases (h : History (save path c).run t events result t') :
    result ≠ .ok () ∧ Unmoved path t events t' ∨
      result = .ok () ∧ c.validate = .ok () ∧ Moved path c t events t' := by
  rw [save, FileTask.history_bind_iff] at h
  rcases h with ⟨failure, rfl, hchecked⟩ | ⟨first, c', t₁, second, rfl, hchecked, h⟩
  · obtain ⟨rfl, -, rfl⟩ := history_pure_iff.mp hchecked
    exact Or.inl ⟨by simp, .refl path t', by simp⟩
  obtain ⟨rfl, hvalid, rfl⟩ := history_pure_iff.mp hchecked
  have hvalid' : c.validate = .ok () ∧ c' = c := by
    cases hvalidate : c.validate with
    | error e =>
        rw [hvalidate] at hvalid
        cases hvalid
    | ok _ =>
        rw [hvalidate] at hvalid
        exact ⟨rfl, Except.ok.inj hvalid⟩
  obtain ⟨hvalid, rfl⟩ := hvalid'
  rw [List.nil_append]
  cases hdirectory : directoryOf? path with
  | none =>
      simp only [hdirectory] at h
      rcases replace_cases (.refl path t₁) h with hunmoved | ⟨hok, hmoved⟩
      · exact Or.inl hunmoved
      · exact Or.inr ⟨hok, hvalid, hmoved⟩
  | some directory =>
      simp only [hdirectory] at h
      rcases FileTask.history_during_bind_iff.mp h with ⟨e, rfl, hmade⟩ |
        ⟨third, _, t₂, fourth, rfl, hmade, h⟩
      · exact Or.inl ⟨by simp, prepared_of_history hdirectory hmade⟩
      · obtain ⟨hprepared, hthird⟩ := prepared_of_history hdirectory hmade
        rcases replace_cases hprepared h with ⟨hne, hend, hevents⟩ |
          ⟨hok, before, content, executable, hbefore, hcontent, hfile, hmove, hevents⟩
        · exact Or.inl ⟨hne, hend, List.forall_mem_append.mpr ⟨hthird, hevents⟩⟩
        · exact Or.inr ⟨hok, hvalid, before, content, executable, hbefore, hcontent, hfile, hmove,
            List.forall_mem_append.mpr ⟨fun event hevent => Or.inl (hthird event hevent), hevents⟩⟩

end Preparing

section Loading

/-- A good configuration is loaded from a file with its written form. -/
theorem run_load_of_file {executable : Bool} (hvalid : c.validate = .ok ()) (hfits : c.compiler.Fits)
    (hlocate : t.locate path = .ok l)
    (hfile : t.node? l = some (.file (c.written ++ "\n").toUTF8 executable)) :
    FileAction.run (load path).run t = (.ok c, t) := by
  have hexists : t.exists? path = true := by
    rw [exists?, stat, hlocate]
    simp only [hfile]
  have hchecked : FileAction.run c.checked.run t = (.ok c, t) := by
    rw [checked, FileTask.run_ofExcept, hvalid]
  rw [load, FileTask.run_bind, FileTask.run_observe]
  simp only [hexists, if_true]
  rw [FileTask.run_bind, FileTask.inspect, FileTask.run_during, FileAction.run_observe,
    readText_of_locate hlocate hfile]
  simp only [ofWritten?_written hfits]
  exact hchecked

/-- After the move the target leads to what was written. -/
theorem run_load_of_moved (hvalid : c.validate = .ok ()) (hfits : c.compiler.Fits)
    (h : Moved path c t events t') : (FileAction.run (load path).run t').1 = .ok c := by
  obtain ⟨before, content, executable, -, rfl, hfile, hmove, -⟩ := h
  obtain ⟨l, m, hl, -, -⟩ := rename_ok hmove
  have hl' := destination_of_locate hl
  rw [← hl'] at hfile
  obtain ⟨m, hm, hmoved⟩ := moved_of_rename hmove hl hfile
  have hlocate : t'.locate path = .ok m :=
    locate_of_kept hmoved.workingDirectory (fun other _ => (hmoved.directory_iff other).mpr) hm
  rw [run_load_of_file hvalid hfits hlocate (hmoved.node?_target.trans hfile)]

end Loading

section Target

/-- At the place of a target there is what was there, or a directory, when the directory that the target is
in is written through that place and nothing was there.  Without double dots the target holds what it held. -/
structure Kept (path : Path) (t now : FileTree) : Prop where
  place : now.node? (path.destination t.workingDirectory) = t.node? (path.destination t.workingDirectory) ∨
    t.node? (path.destination t.workingDirectory) = none ∧
      now.node? (path.destination t.workingDirectory) = some .directory ∧
      ∃ directory, directoryOf? path = some directory ∧
        directory.Crosses t.workingDirectory (path.destination t.workingDirectory)
  content : ".." ∉ path.names →
    now.node? (path.destination t.workingDirectory) = t.node? (path.destination t.workingDirectory) ∧
      (t.Sound → (now.stat path).toOption = (t.stat path).toOption)

/-- The directory that the target is in is written through the place of the target only with double dots. -/
theorem not_crosses_of_noUp {directory : Path} (hname : path.fileName? ≠ none) (hup : ".." ∉ path.names)
    (hdirectory : directoryOf? path = some directory) (wd : Location) :
    ¬directory.Crosses wd (path.destination wd) := by
  obtain ⟨name, hname⟩ := Option.ne_none_iff_exists'.mp hname
  obtain ⟨front, hends⟩ := Path.exists_endsIn hname
  obtain ⟨hparent, hsome⟩ := Option.filter_eq_some_iff.mp hdirectory
  obtain ⟨dots, hnames, -⟩ := hends.names
  rcases hends.names_parent hparent with hempty | ⟨hfirst, habsolute⟩
  · simp [hempty] at hsome
  · rintro ⟨before, hbefore, hlead⟩
    rw [Path.origin, habsolute] at hlead
    have hcrosses : (Path.mk (String.ofList front)).Crosses wd (path.destination wd) :=
      ⟨before, by rw [Path.names, String.toList_ofList]; exact hbefore.trans hfirst, hlead⟩
    have hbelow := hcrosses.isPrefix (fun hmem => hup ?_)
    · rw [hends.destination] at hbelow
      have hlengths := hbelow.length_le
      rw [List.length_append, List.length_singleton] at hlengths
      omega
    · rw [Path.names, String.toList_ofList] at hmem
      rw [hnames]
      exact List.mem_append_left _ hmem

/-- Nothing is found at a place where nothing is. -/
theorem stat_of_free (hfree : t.node? (path.destination t.workingDirectory) = none) :
    (t.stat path).toOption = none := by
  rw [stat]
  cases hlocate : t.locate path with
  | error e => rfl
  | ok l =>
      rw [← destination_of_locate hlocate] at hfree
      simp only [hfree]
      rfl

/-- What a path without double dots leads to is what is at the place. -/
theorem stat_eq_of_node?_eq (ht : t.Sound) (hup : ".." ∉ path.names)
    (hwd : now.workingDirectory = t.workingDirectory)
    (hdirectory : ∀ l, t.node? l = some .directory → now.node? l = some .directory)
    (hnode : now.node? (path.destination t.workingDirectory) =
      t.node? (path.destination t.workingDirectory)) :
    (now.stat path).toOption = (t.stat path).toOption := by
  by_cases hfree : t.node? (path.destination t.workingDirectory) = none
  · rw [stat_of_free hfree, stat_of_free]
    rw [hwd, hnode, hfree]
  -- Where something is, the way there was there before.
  have hback : ∀ m, path.Crosses now.workingDirectory m → now.node? m = some .directory →
      t.node? m = some .directory := by
    intro m hcrosses hm
    rw [hwd] at hcrosses
    obtain ⟨rest, hrest⟩ := hcrosses.isPrefix hup
    cases rest with
    | nil =>
        rw [List.append_nil] at hrest
        rw [hrest, ← hnode, ← hrest, hm]
    | cons name rest =>
        refine (ht.housed m name (ht.around ?_ hfree)).2
        exact ⟨rest, by rw [← hrest, List.append_assoc]; rfl⟩
  have hsame : ∀ l, now.locate path = .ok l ↔ t.locate path = .ok l := fun l =>
    ⟨locate_of_kept hwd.symm hback, locate_of_kept hwd fun m _ => hdirectory m⟩
  rw [stat, stat]
  cases hlocate : t.locate path with
  | ok l =>
      have hl := destination_of_locate hlocate
      rw [(hsame l).mpr hlocate]
      rw [← hl] at hnode
      simp only [hnode]
  | error e =>
      cases hlocate' : now.locate path with
      | error e' => rfl
      | ok l =>
          rw [(hsame l).mp hlocate'] at hlocate
          cases hlocate

theorem Prepared.kept (h : Prepared path t now) (hname : path.fileName? ≠ none) : Kept path t now := by
  have hplace := h.node _ (destination_temporaryPath_ne hname t.workingDirectory).symm
  refine ⟨hplace, fun hup => ?_⟩
  have hnode : now.node? (path.destination t.workingDirectory) =
      t.node? (path.destination t.workingDirectory) := by
    rcases hplace with hkept | ⟨-, -, directory, hdirectory, hcrosses⟩
    · exact hkept
    · exact absurd hcrosses (not_crosses_of_noUp hname hup hdirectory _)
  exact ⟨hnode, fun ht => stat_eq_of_node?_eq ht hup h.workingDirectory h.directory hnode⟩

end Target

/-- To save a configuration is to replace the target by all of it, or to leave the target alone, whatever
the host refuses on the way.  The temporary file is never in the place of the target.  When the save
succeeds, loading the same path gives the configuration that was saved, whatever its texts are.  When it
fails at any step, and also after each step before the move, the target holds what it held; only where its
own directory is written through the place of the target with double dots, and nothing was there, a
directory may be there that was made on the way. -/
theorem saving_replaces_the_target_or_keeps_it (hname : path.fileName? ≠ none)
    (hfits : c.compiler.Fits) (h : History (save path c).run t events result t') :
    (temporaryPath path ≠ path ∧
        ∀ wd, (temporaryPath path).destination wd ≠ path.destination wd) ∧
      (result = .ok () → (FileAction.run (load path).run t').1 = .ok c) ∧
      (result ≠ .ok () → Kept path t t') ∧
      ∀ event ∈ events, Kept path t event.after ∨ result = .ok () ∧ event.after = t' := by
  refine ⟨⟨temporaryPath_ne hname, destination_temporaryPath_ne hname⟩, ?_⟩
  rcases save_cases h with ⟨hfailed, hend, hevents⟩ | ⟨hok, hvalid, hmoved⟩
  · exact ⟨fun hok => absurd hok hfailed, fun _ => hend.kept hname,
      fun event hevent => Or.inl ((hevents event hevent).kept hname)⟩
  · refine ⟨fun _ => run_load_of_moved hvalid hfits hmoved, fun hfailed => absurd hok hfailed,
      fun event hevent => ?_⟩
    obtain ⟨_, _, _, -, -, -, -, hevents⟩ := hmoved
    exact (hevents event hevent).imp (·.kept hname) fun hend => ⟨hok, hend⟩

section Runs

variable {directory : Path} {made written : FileTree}

/-- How a save ends once the directory is made and the temporary file is written. -/
theorem run_save (hvalid : c.validate = .ok ()) (hdirectory : directoryOf? path = some directory)
    (hmade : (createDirectory directory).run t = (.ok (), made))
    (hwritten : (FileOp.write (temporaryPath path) (c.written ++ "\n").toUTF8).apply made = .ok written) :
    FileAction.run (save path c).run t =
      match (FileOp.rename (temporaryPath path) path).apply written with
      | .ok t => (.ok (), t)
      | .error e => (.error ⟨[.replaceConfig path], .os e⟩, written) := by
  have hchecked : FileAction.run c.checked.run t = (.ok c, t) := by
    rw [checked, FileTask.run_ofExcept, hvalid]
  rw [save, FileTask.run_bind, hchecked]
  simp only [hdirectory]
  rw [FileTask.run_bind, FileTask.run_during, hmade]
  dsimp only
  rw [FileTask.run_bind, FileTask.run_during, run_perform_ok hwritten]
  dsimp only
  rw [FileTask.run_during]
  cases hmove : (FileOp.rename (temporaryPath path) path).apply written with
  | ok t' => rw [run_perform_ok hmove]
  | error e => rw [run_perform_error hmove]

deriving instance DecidableEq for FileTree

/-- A target whose own directory is written through its place. -/
def loopedPath : Path := ⟨"x/../x"⟩

/-- Where nothing was, a save that fails can leave a directory in the place of the target: it is on the way
to the directory that the target is in. -/
theorem saving_through_the_target_leaves_a_directory :
    loopedPath.fileName? ≠ none ∧ empty.exists? loopedPath = false ∧
      (FileAction.run (save loopedPath .standard).run empty).1 =
        .error ⟨[.replaceConfig loopedPath], .os .isDirectory⟩ ∧
      (FileAction.run (save loopedPath .standard).run empty).2.isDirectory loopedPath = true := by
  have hname : loopedPath.fileName? = some "x" := by decide +kernel
  have htemporary : temporaryPath loopedPath = ⟨"x/../x.toml.tmp"⟩ := by decide +kernel
  have hdirectory : directoryOf? loopedPath = some ⟨"x/.."⟩ := by decide +kernel
  have hmade : (createDirectory ⟨"x/.."⟩).run empty = (.ok (), empty.put ["x"] .directory) := by decide +kernel
  have hwritten : ∀ content, (FileOp.write (temporaryPath loopedPath) content).apply
      (empty.put ["x"] .directory) =
        .ok ((empty.put ["x"] .directory).put ["x.toml.tmp"] (.file content false)) := by
    intro content
    rw [htemporary]
    rfl
  have hrun := run_save (c := .standard) rfl hdirectory hmade (hwritten _)
  rw [htemporary] at hrun
  refine ⟨by simp [hname], by decide, ?_, ?_⟩
  · exact congrArg Prod.fst hrun
  · rw [hrun]
    rfl

end Runs

section Lamp

/-- Where the settings of the lamp are saved, in a directory that has to be made. -/
def lampPath : Path := ⟨"conf/lamp.toml"⟩

/-- Settings of the lamp with all kinds of texts in them. -/
def lampSettings : EngineConfig :=
  { EngineConfig.standard with
    templatePath := some ⟨"lamp's \"wrapper\".tpl"⟩
    debugExtensions := ["mdb\n'''"]
    compiler := ⟨["scriptc", "-\\\t"], [], 1, 0xffffffffffffffff⟩ }

theorem settings_of_the_lamp_are_saved :
    lampPath.fileName? ≠ none ∧ lampSettings.compiler.Fits ∧
      (FileAction.run (save lampPath lampSettings).run empty).1 = .ok () ∧
      (FileAction.run (load lampPath).run
        (FileAction.run (save lampPath lampSettings).run empty).2).1 = .ok lampSettings := by
  have hname : lampPath.fileName? ≠ none := by
    have hname : lampPath.fileName? = some "lamp.toml" := by decide +kernel
    simp [hname]
  have hfits : lampSettings.compiler.Fits := ⟨by decide, by decide⟩
  have hsaved : (FileAction.run (save lampPath lampSettings).run empty).1 = .ok () := by
    have htemporary : temporaryPath lampPath = ⟨"conf/lamp.toml.tmp"⟩ := by decide +kernel
    have hdirectory : directoryOf? lampPath = some ⟨"conf"⟩ := by decide +kernel
    have hmade : (createDirectory ⟨"conf"⟩).run empty = (.ok (), empty.put ["conf"] .directory) := by
      decide +kernel
    have hwritten : ∀ content, (FileOp.write (temporaryPath lampPath) content).apply
        (empty.put ["conf"] .directory) =
          .ok ((empty.put ["conf"] .directory).put ["conf", "lamp.toml.tmp"] (.file content false)) := by
      intro content
      rw [htemporary]
      rfl
    have hrun := run_save (c := lampSettings) rfl hdirectory hmade (hwritten _)
    rw [htemporary] at hrun
    exact congrArg Prod.fst hrun
  obtain ⟨-, hload, -⟩ := saving_replaces_the_target_or_keeps_it hname hfits
    (history_run (save lampPath lampSettings).run empty)
  exact ⟨hname, hfits, hsaved, hload hsaved⟩

end Lamp

end EngineConfig

end Automation
