import Automation.Loading.Isolated
import Automation.Proofs.Files.Directories
import Automation.Proofs.Files.Sparing
import Automation.Proofs.Publishing.Regions

/-
The copies that units run from.

A unit is started from a copy of its image in a directory of its address, next to a copy of its symbols
if it has any, and both are named after its generation.  Below a snapshot directory there is nothing but
the copies of some units: to write a snapshot adds those of one unit to them, to remove it takes them
away, and a snapshot that cannot be written leaves at most the directory of the address behind.
-/

namespace Automation

open FileAction FileTree

/-- What a bound context runs: a generation of an address, with the image that it was bound to. -/
structure UnitCopy where
  address : String
  generation : Generation
  image : ArtifactImage
deriving DecidableEq

namespace UnitCopy

/-- The name of the copied image. -/
def name (extension : String) (c : UnitCopy) : String := toString c.generation ++ "." ++ extension

/-- The name of the copied symbols. -/
def symbolsName (extension : String) (c : UnitCopy) : String := c.name extension ++ ".sym"

/-- The copied files, with what is in them. -/
def files (extension : String) (c : UnitCopy) : List (String × ByteArray) :=
  (c.name extension, c.image.bytes) ::
    match c.image.debug with
    | some symbols => [(c.symbolsName extension, symbols)]
    | none => []

/-- Two copies are of one generation of an address. -/
def SameUnit (c other : UnitCopy) : Prop :=
  c.address = other.address ∧ c.generation = other.generation

/-- The places of a copy below the snapshot directory. -/
def IsPlace (extension : String) (c : UnitCopy) (rest : Location) : Prop :=
  rest = [c.address, c.name extension] ∨ rest = [c.address, c.symbolsName extension]

/-- The file of a copy at a place below the snapshot directory. -/
def Has (extension : String) (c : UnitCopy) (rest : Location) (content : ByteArray) : Prop :=
  ∃ name, (name, content) ∈ c.files extension ∧ rest = [c.address, name]

/-- All names of a copy can be used. -/
structure Fits (S : Path) (extension : String) (c : UnitCopy) : Prop where
  isAddress : isAddress c.address = true
  noSlash : '/' ∉ extension.toList
  size : c.address.utf8ByteSize ≤ nameLimit
  takes : ∀ file ∈ c.files extension, Takes (S.child c.address) file.1

section Names

variable {S : Path} {extension : String} {c other : UnitCopy} {rest : Location}
  {content : ByteArray}

theorem name_eq (extension : String) (c : UnitCopy) :
    c.name extension = toString c.generation ++ ("." ++ extension) :=
  String.append_assoc ..

theorem symbolsName_eq (extension : String) (c : UnitCopy) :
    c.symbolsName extension = toString c.generation ++ ("." ++ (extension ++ ".sym")) := by
  rw [symbolsName, name, String.append_assoc, String.append_assoc]

theorem name_ne_symbolsName (extension : String) (c : UnitCopy) :
    c.name extension ≠ c.symbolsName extension := by
  intro heq
  have hlength := congrArg String.length heq
  rw [symbolsName, String.length_append] at hlength
  simp at hlength

theorem mem_files_iff {name : String} : (name, content) ∈ c.files extension ↔
    name = c.name extension ∧ content = c.image.bytes ∨
      name = c.symbolsName extension ∧ c.image.debug = some content := by
  rw [files]
  cases c.image.debug with
  | none => simp
  | some symbols => simp [eq_comm]

theorem Has.isPlace (h : c.Has extension rest content) : c.IsPlace extension rest := by
  obtain ⟨name, hname, rfl⟩ := h
  rcases mem_files_iff.mp hname with ⟨rfl, -⟩ | ⟨rfl, -⟩
  · exact Or.inl rfl
  · exact Or.inr rfl

theorem IsPlace.below (d : Location) {name : String} (h : c.IsPlace extension [c.address, name]) :
    ∀ l, l = d ++ [c.address] ++ [name] → ∃ rest, c.IsPlace extension rest ∧ l = d ++ rest := by
  rintro l rfl
  exact ⟨_, h, by rw [List.append_assoc]; rfl⟩

theorem has_name_iff : c.Has extension [c.address, c.name extension] content ↔
    content = c.image.bytes := by
  constructor
  · rintro ⟨name, hname, heq⟩
    obtain rfl : c.name extension = name := by simpa using heq
    rcases mem_files_iff.mp hname with ⟨-, hcontent⟩ | ⟨hsame, -⟩
    · exact hcontent
    · exact absurd hsame (name_ne_symbolsName extension c)
  · rintro rfl
    exact ⟨_, mem_files_iff.mpr (Or.inl ⟨rfl, rfl⟩), rfl⟩

theorem has_symbolsName_iff : c.Has extension [c.address, c.symbolsName extension] content ↔
    c.image.debug = some content := by
  constructor
  · rintro ⟨name, hname, heq⟩
    obtain rfl : c.symbolsName extension = name := by simpa using heq
    rcases mem_files_iff.mp hname with ⟨hsame, -⟩ | ⟨-, hcontent⟩
    · exact absurd hsame.symm (name_ne_symbolsName extension c)
    · exact hcontent
  · intro hcontent
    exact ⟨_, mem_files_iff.mpr (Or.inr ⟨rfl, hcontent⟩), rfl⟩

/-- A place tells the generation of its copy: it is what stands before the first dot. -/
theorem IsPlace.sameUnit (h : c.IsPlace extension rest) (h' : other.IsPlace extension rest) :
    c.SameUnit other := by
  have hplace : ∀ {c : UnitCopy}, c.IsPlace extension rest →
      ∃ tail, rest = [c.address, toString c.generation ++ ("." ++ tail)] := by
    rintro c (rfl | rfl)
    · exact ⟨extension, by rw [name_eq]⟩
    · exact ⟨extension ++ ".sym", by rw [symbolsName_eq]⟩
  obtain ⟨tail, rfl⟩ := hplace h
  obtain ⟨tail', heq⟩ := hplace h'
  obtain ⟨haddress, hname⟩ : c.address = other.address ∧
      toString c.generation ++ ("." ++ tail) = toString other.generation ++ ("." ++ tail') := by
    simpa using heq
  refine ⟨haddress, Environment.toString_inj ?_⟩
  exact ArtifactStore.label_eq_of_append_eq (Environment.isAddress_toString _)
    (Environment.isAddress_toString _) (by simp) (by simp) hname

theorem isPart_name (h : '/' ∉ extension.toList) (c : UnitCopy) : IsPart (c.name extension) := by
  rw [name_eq]
  apply ArtifactStore.isPart_label_append (Environment.isAddress_toString _)
  simp [h]

theorem isPart_symbolsName (h : '/' ∉ extension.toList) (c : UnitCopy) :
    IsPart (c.symbolsName extension) := by
  rw [symbolsName_eq]
  apply ArtifactStore.isPart_label_append (Environment.isAddress_toString _)
  simp [h]

theorem Fits.isPart_name (h : c.Fits S extension) : IsPart (c.name extension) :=
  UnitCopy.isPart_name h.noSlash c

theorem Fits.isPart_symbolsName (h : c.Fits S extension) : IsPart (c.symbolsName extension) :=
  UnitCopy.isPart_symbolsName h.noSlash c

end Names

end UnitCopy

/-- Below the directory of a path there are the files of some copies, and no others. -/
structure Shelf (S : Path) (wd d : Location) (extension : String) (copies : UnitCopy → Prop)
    (t : FileTree) : Prop where
  workingDirectory : t.workingDirectory = wd
  reaches : t.Reaches S d
  content : ∀ rest content, t.contentAt? (d ++ rest) = some content ↔
    ∃ c, copies c ∧ c.Has extension rest content
  /-- There are no directories but those of addresses. -/
  shallow : ∀ rest, t.node? (d ++ rest) = some .directory → rest.length ≤ 1
  fits : ∀ c, copies c → c.Fits S extension
  housed : ∀ c, copies c → t.node? (d ++ [c.address]) = some .directory

namespace Shelf

variable {S : Path} {wd d : Location} {extension : String} {copies copies' : UnitCopy → Prop}
  {t t' : FileTree} {c : UnitCopy}

theorem congr (h : Shelf S wd d extension copies t) (hsame : ∀ c, copies' c ↔ copies c) :
    Shelf S wd d extension copies' t := by
  obtain rfl : copies' = copies := funext fun c => propext (hsame c)
  exact h

/-- What spares the directory leaves the copies alone. -/
theorem spared (h : Shelf S wd d extension copies t) (hspared : S.Spared t t') :
    Shelf S wd d extension copies t' := by
  have hbelow := hspared.below
  have hcontent := hspared.contentAt?
  rw [h.reaches.destination] at hbelow hcontent
  refine ⟨hspared.workingDirectory.trans h.workingDirectory, hspared.reaches h.reaches,
    fun rest content => ?_, fun rest hdirectory => ?_, h.fits,
    fun c hc => ?_⟩
  · rw [hcontent]
    exact h.content rest content
  · exact h.shallow rest (hbelow rest ▸ hdirectory)
  · rw [hbelow]
    exact h.housed c hc

/-- A directory for an address adds no file. -/
theorem making (h : Shelf S wd d extension copies t) {p : Path} {address : String}
    {events : List FileEvent} {result : Except OsError Unit}
    (hmade : Making t p (d ++ [address]) events result t') : Shelf S wd d extension copies t' := by
  refine ⟨hmade.workingDirectory.trans h.workingDirectory,
    h.reaches.of_kept hmade.workingDirectory fun _ => hmade.directory,
    fun rest content => ?_, fun rest hdirectory => ?_, h.fits, fun c hc => ?_⟩
  · rw [hmade.contentAt?]
    exact h.content rest content
  · by_cases hnew : d ++ rest = d ++ [address]
    · rw [List.append_cancel_left hnew]
      exact le_rfl
    · rw [hmade.node?_other hnew] at hdirectory
      exact h.shallow rest hdirectory
  · exact hmade.directory (h.housed c hc)

theorem reaches_house (h : Shelf S wd d extension copies t) (hc : copies c) :
    t.Reaches (S.child c.address) (d ++ [c.address]) :=
  h.reaches.child (isName_of_isAddress (h.fits c hc).isAddress) (h.fits c hc).size (h.housed c hc)

/-- The copies of one unit have changed, and all others are as they were. -/
theorem changed (h : Shelf S wd d extension copies t)
    (hagrees : t.AgreesOff (fun l => ∃ rest, c.IsPlace extension rest ∧ l = d ++ rest) t')
    (hothers : ∀ other, ¬c.SameUnit other → (copies' other ↔ copies other))
    (hown : ∀ rest content, c.IsPlace extension rest →
      (t'.contentAt? (d ++ rest) = some content ↔
        ∃ other, copies' other ∧ other.Has extension rest content))
    (hfits : ∀ other, copies' other → c.SameUnit other →
      other.Fits S extension ∧ t.node? (d ++ [other.address]) = some .directory) :
    Shelf S wd d extension copies' t' := by
  have hcases : ∀ other, copies' other →
      other.Fits S extension ∧ t.node? (d ++ [other.address]) = some .directory := by
    intro other hother
    by_cases hsame : c.SameUnit other
    · exact hfits other hother hsame
    · have hbefore := (hothers other hsame).mp hother
      exact ⟨h.fits other hbefore, h.housed other hbefore⟩
  refine ⟨hagrees.workingDirectory.trans h.workingDirectory, hagrees.reaches h.reaches,
    fun rest content => ?_, fun rest hdirectory => ?_,
    fun other hother => (hcases other hother).1, fun other hother => ?_⟩
  · by_cases hplace : c.IsPlace extension rest
    · exact hown rest content hplace
    · have hkept : t'.contentAt? (d ++ rest) = t.contentAt? (d ++ rest) := by
        refine contentAt?_congr (hagrees.node _ ?_)
        rintro ⟨rest', hplace', heq⟩
        exact hplace (List.append_cancel_left heq ▸ hplace')
      rw [hkept, h.content]
      -- No copy of this unit has a file here.
      have hnot : ∀ other, other.Has extension rest content → ¬c.SameUnit other := by
        rintro other hhas ⟨haddress, hgeneration⟩
        apply hplace
        rcases hhas.isPlace with heq | heq
        · exact Or.inl (by rw [heq, UnitCopy.name, UnitCopy.name, haddress, hgeneration])
        · refine Or.inr ?_
          rw [heq, UnitCopy.symbolsName, UnitCopy.symbolsName, UnitCopy.name, UnitCopy.name,
            haddress, hgeneration]
      constructor
      · rintro ⟨other, hother, hhas⟩
        exact ⟨other, (hothers other (hnot other hhas)).mpr hother, hhas⟩
      · rintro ⟨other, hother, hhas⟩
        exact ⟨other, (hothers other (hnot other hhas)).mp hother, hhas⟩
  · exact h.shallow rest ((hagrees.directory_iff _).mp hdirectory)
  · exact (hagrees.directory_iff _).mpr (hcases other hother).2

end Shelf

namespace FileTree

variable {t t' : FileTree} {dir : Path} {l : Location} {name : String}

/-- What becomes of an attempt to remove a name in a directory: there is no file there in the end. -/
theorem Reaches.run_removeIfExists (h : t.Reaches dir l) (hname : IsPart name)
    (htakes : ∀ content, t.contentAt? (l ++ [name]) = some content → Takes dir name) :
    t.AgreesOff (· = l ++ [name]) ((FileAction.removeIfExists (dir.child name)).run t).2 ∧
      ((FileAction.removeIfExists (dir.child name)).run t).2.contentAt? (l ++ [name]) = none := by
  have hfiles : ((FileAction.removeIfExists (dir.child name)).run t).2 =
      ((perform (.unlink (dir.child name))).run t).2 := by
    rw [FileAction.removeIfExists, run_bind]
    split <;> rfl
  rw [hfiles]
  cases happly : (FileOp.unlink (dir.child name)).apply t with
  | ok t' =>
      obtain ⟨m, content, executable, hlocate, hfile, rfl⟩ := unlink_ok happly
      obtain ⟨-, rfl⟩ := (h.locate_iff hname).mp hlocate
      rw [run_perform_ok happly]
      refine ⟨agreesOff_erase (by simp [hfile]), contentAt?_eq_none_of_node? ?_⟩
      rw [node?_erase_of_ne (by simp), if_pos rfl]
  | error e =>
      rw [run_perform_error happly]
      refine ⟨.refl _ _, ?_⟩
      cases hcontent : t.contentAt? (l ++ [name]) with
      | none => rfl
      | some content =>
          obtain ⟨executable, hnode⟩ := contentAt?_eq_some_iff.mp hcontent
          have hlocate := (h.locate_iff hname).mpr ⟨htakes content hcontent, rfl⟩
          rw [FileOp.apply, unlink_of_locate hlocate hnode] at happly
          cases happly

/-- A file can be written to a name in a directory if the name can be used, and otherwise nothing is
changed. -/
theorem Reaches.run_write (h : t.Reaches dir l) (hname : IsPart name)
    (hfree : t.node? (l ++ [name]) ≠ some .directory) (content : ByteArray) :
    (∃ t', (perform (.write (dir.child name) content)).run t = (.ok (), t') ∧ Takes dir name ∧
        t.AgreesOff (· = l ++ [name]) t' ∧ t'.contentAt? (l ++ [name]) = some content) ∨
      ¬Takes dir name ∧ ∃ e, (perform (.write (dir.child name) content)).run t = (.error e, t) := by
  by_cases htakes : Takes dir name
  · have hlocate := (h.locate_iff hname).mpr ⟨htakes, rfl⟩
    obtain ⟨old, executable, hupdate⟩ := update_of_locate (fun _ => content) hlocate hfree
    refine Or.inl ⟨_, run_perform_ok hupdate, htakes, agreesOff_put_file hfree _ _, ?_⟩
    rw [contentAt?, node?_put_of_ne (by simp), if_pos rfl]
  · refine Or.inr ⟨htakes, ?_⟩
    cases happly : (FileOp.write (dir.child name) content).apply t with
    | ok t' =>
        change t.update _ _ = _ at happly
        rw [update] at happly
        cases hlocate : t.locate (dir.child name) with
        | ok m => exact absurd ((h.locate_iff hname).mp hlocate).1 htakes
        | error e =>
            rw [hlocate] at happly
            cases happly
    | error e => exact ⟨e, run_perform_error happly⟩

/-- A file that is there can be made one that can be run. -/
theorem Reaches.run_setExecutable (h : t.Reaches dir l) (hname : IsPart name)
    (htakes : Takes dir name) {content : ByteArray}
    (hcontent : t.contentAt? (l ++ [name]) = some content) :
    ∃ t', (perform (.setExecutable (dir.child name) true)).run t = (.ok (), t') ∧
      t.AgreesOff (· = l ++ [name]) t' ∧ t'.contentAt? (l ++ [name]) = some content := by
  obtain ⟨executable, hnode⟩ := contentAt?_eq_some_iff.mp hcontent
  have happly : (FileOp.setExecutable (dir.child name) true).apply t =
      .ok (t.put (l ++ [name]) (.file content true)) := by
    rw [FileOp.apply, setExecutable, (h.locate_iff hname).mpr ⟨htakes, rfl⟩]
    simp only [hnode]
  refine ⟨_, run_perform_ok happly, agreesOff_put_file (by simp [hnode]) _ _, ?_⟩
  rw [contentAt?, node?_put_of_ne (by simp), if_pos rfl]

theorem run_steps_cons (op : FileOp) (rest : List FileOp) (t : FileTree) :
    (Snapshot.steps (op :: rest)).run t =
      match (perform op).run t with
      | (.ok _, t') => (Snapshot.steps rest).run t'
      | (.error e, t') => (.error e, t') := by
  rw [Snapshot.steps, run_bind]
  cases (perform op).run t with
  | mk result t' => cases result <;> rfl

/-- The same for a file that can be run, whatever is done after that. -/
theorem Reaches.run_writeRunnable (h : t.Reaches dir l) (hname : IsPart name)
    (hfree : t.node? (l ++ [name]) ≠ some .directory) (content : ByteArray) (rest : List FileOp) :
    (∃ t', (Snapshot.steps (.write (dir.child name) content ::
          .setExecutable (dir.child name) true :: rest)).run t = (Snapshot.steps rest).run t' ∧
        Takes dir name ∧ t.AgreesOff (· = l ++ [name]) t' ∧
          t'.contentAt? (l ++ [name]) = some content) ∨
      ∃ e, (Snapshot.steps (.write (dir.child name) content ::
        .setExecutable (dir.child name) true :: rest)).run t = (.error e, t) := by
  simp only [run_steps_cons]
  rcases h.run_write hname hfree content with
    ⟨t₁, hrun, htakes, hwritten, hcontent⟩ | ⟨-, e, hrun⟩
  · obtain ⟨t₂, hmark, hmarked, hcontent'⟩ :=
      (hwritten.reaches h).run_setExecutable hname htakes hcontent
    refine Or.inl ⟨t₂, ?_, htakes, hwritten.trans hmarked, hcontent'⟩
    rw [hrun]
    dsimp only
    rw [hmark]
  · refine Or.inr ⟨e, ?_⟩
    rw [hrun]

/-- In a text that is not all slashes there is a name. -/
theorem namesOf_ne_nil {cs : List Char} {c : Char} (hmem : c ∈ cs) (hc : c ≠ '/') :
    Path.namesOf cs ≠ [] := by
  have hpiece : ∃ piece ∈ Text.splitAt '/' cs, piece ≠ [] := by
    induction cs with
    | nil => cases hmem
    | cons first rest ih =>
        by_cases hfirst : first = '/'
        · have hrest : c ∈ rest := (List.mem_cons.mp hmem).resolve_left (hfirst ▸ hc)
          obtain ⟨piece, hpiece, hne⟩ := ih hrest
          exact ⟨piece, by simp [Text.splitAt, hfirst, hpiece], hne⟩
        · cases hsplit : Text.splitAt '/' rest with
          | nil => exact absurd hsplit (Text.splitAt_ne_nil '/' rest)
          | cons piece others => exact ⟨first :: piece, by simp [Text.splitAt, hfirst, hsplit], by simp⟩
  obtain ⟨piece, hpiece, hne⟩ := hpiece
  have hname : String.ofList piece ∈ Path.namesOf cs := by
    rw [Path.namesOf, List.mem_filter]
    exact ⟨List.mem_map_of_mem hpiece, by simpa using hne⟩
  exact List.ne_nil_of_mem hname

/-- What comes after a slash is looked up in a directory. -/
theorem directory_of_locate_slash {first : String} (hfirst : IsPart first) (hdir : dir.text ≠ "")
    (second : String) (h : t.locate (dir.join ⟨first ++ ("/" ++ second)⟩) = .ok l) :
    t.node? ((dir.child first).destination t.workingDirectory) = some .directory := by
  have hrelative := Path.isAbsolute_mk_append hfirst ("/" ++ second)
  have hnames : (dir.join ⟨first ++ ("/" ++ second)⟩).names =
      (dir.child first).names ++ Path.namesOf second.toList := by
    have htext : (Path.mk (first ++ ("/" ++ second))).names =
        first :: Path.namesOf second.toList := by
      rw [Path.names, String.toList_append, String.toList_append]
      exact (Path.namesOf_append_slash _ _).trans (by rw [Path.namesOf_name hfirst]; rfl)
    rw [Path.names_join hdir hrelative, htext, Path.names_child hfirst, List.append_assoc]
    rfl
  have horigin : (dir.join ⟨first ++ ("/" ++ second)⟩).isAbsolute =
      (dir.child first).isAbsolute := by
    rw [Path.isAbsolute_child hfirst, Path.join, hrelative, Bool.false_or, if_neg (by simpa using hdir)]
    split
    · rw [Path.isAbsolute, Path.isAbsolute, String.toList_append,
        List.head?_append_of_ne_nil _ (by simpa using hdir)]
    · rw [Path.isAbsolute, Path.isAbsolute, String.append_assoc, String.toList_append,
        List.head?_append_of_ne_nil _ (by simpa using hdir)]
  have htext : ∃ before, (dir.join ⟨first ++ ("/" ++ second)⟩).text.toList =
      before ++ '/' :: second.toList := by
    rw [Path.join, hrelative, Bool.false_or, if_neg (by simpa using hdir)]
    split
    · exact ⟨dir.text.toList ++ first.toList, by simp⟩
    · exact ⟨dir.text.toList ++ '/' :: first.toList, by simp⟩
  -- The walk goes on after the slash, if only to say that a directory is meant.
  have hwalk : ∃ name rest, walkNames (dir.join ⟨first ++ ("/" ++ second)⟩) =
      (dir.child first).names ++ name :: rest := by
    have hwalk : walkNames (dir.join ⟨first ++ ("/" ++ second)⟩) =
        if (dir.join ⟨first ++ ("/" ++ second)⟩).text.toList.getLast? = some '/' then
          (dir.join ⟨first ++ ("/" ++ second)⟩).names ++ ["."]
        else (dir.join ⟨first ++ ("/" ++ second)⟩).names := rfl
    rw [hwalk, hnames]
    cases hrest : Path.namesOf second.toList with
    | cons name rest =>
        split
        · exact ⟨name, rest ++ ["."], by simp⟩
        · exact ⟨name, rest, rfl⟩
    | nil =>
        rw [if_pos]
        · exact ⟨".", [], by simp⟩
        · obtain ⟨before, hbefore⟩ := htext
          have hslashes : ∀ c ∈ '/' :: second.toList, c = '/' := by
            intro c hc
            by_contra hne
            exact namesOf_ne_nil ((List.mem_cons.mp hc).resolve_left hne) hne hrest
          rw [hbefore, List.getLast?_append_of_ne_nil _ (List.cons_ne_nil _ _),
            List.getLast?_eq_some_getLast (List.cons_ne_nil _ _)]
          exact congrArg some (hslashes _ (List.getLast_mem _))
  obtain ⟨name, rest, hwalkNames⟩ := hwalk
  rw [locate] at h
  split at h
  · cases h
  split at h
  · cases h
  split at h
  · cases h
  obtain ⟨hwalkable, -⟩ := walk_eq_ok_iff.mp h
  rw [hwalkNames, horigin] at hwalkable
  exact (walkable_append.mp hwalkable).2.1

end FileTree

/-- The copy that is made for a request. -/
def BindRequest.copy (request : BindRequest) : UnitCopy :=
  ⟨request.address, request.generation, request.image⟩

section

variable (request : BindRequest)

@[simp] theorem BindRequest.copy_address : request.copy.address = request.address := rfl

@[simp] theorem BindRequest.copy_generation : request.copy.generation = request.generation := rfl

@[simp] theorem BindRequest.copy_image : request.copy.image = request.image := rfl

end

/-- Writing the snapshot of a copy breaks off midway: it is refused when the image has been written
already. -/
def Snapshot.breaksOff (S : Path) (extension : String) (c : UnitCopy) (t : FileTree) : Bool :=
  match (Snapshot.write S extension ⟨c.address, c.generation, c.image, "", ""⟩).run t with
  | (.ok _, _) => false
  | (.error _, t') => t'.isFile (path S extension c.address c.generation)

/-- What else a request says makes no difference. -/
theorem Snapshot.breaksOff_copy (S : Path) (extension : String) (request : BindRequest)
    (t : FileTree) : breaksOff S extension request.copy t =
      match (Snapshot.write S extension request).run t with
      | (.ok _, _) => false
      | (.error _, t') => t'.isFile (path S extension request.address request.generation) := by
  have hwrite : Snapshot.write S extension
      ⟨request.address, request.generation, request.image, "", ""⟩ =
        Snapshot.write S extension request := by
    rw [write, write]
  simp only [breaksOff, BindRequest.copy_address, BindRequest.copy_generation,
    BindRequest.copy_image, hwrite]

namespace Shelf

variable {S : Path} {wd d : Location} {extension : String} {copies : UnitCopy → Prop}
  {t t' : FileTree} {c : UnitCopy} {request : BindRequest}

theorem path_eq (S : Path) (extension : String) (c : UnitCopy) :
    Snapshot.path S extension c.address c.generation =
      (S.child c.address).child (c.name extension) := rfl

theorem symbolsPath_eq (hname : IsPart (c.name extension)) :
    Snapshot.symbolsPath (Snapshot.path S extension c.address c.generation) =
      (S.child c.address).child (c.symbolsName extension) := by
  rw [path_eq]
  exact Path.append_child hname ".sym"

theorem run_remove (hname : IsPart (c.name extension)) (t : FileTree) :
    ((Snapshot.remove (Snapshot.path S extension c.address c.generation)).run t).2 =
      ((FileAction.removeIfExists ((S.child c.address).child (c.symbolsName extension))).run
        ((FileAction.removeIfExists ((S.child c.address).child (c.name extension))).run t).2).2 := by
  rw [Snapshot.remove, symbolsPath_eq hname, path_eq, run_bind, run_bind, run_pure]

/-- To remove a snapshot takes the copies of its unit away. -/
theorem removed (h : Shelf S wd d extension copies t) (hc : copies c) :
    Shelf S wd d extension (fun other => copies other ∧ ¬c.SameUnit other)
      ((Snapshot.remove (Snapshot.path S extension c.address c.generation)).run t).2 := by
  have hfits := h.fits c hc
  have hdir := h.reaches_house hc
  have htakes : ∀ name content, c.IsPlace extension [c.address, name] →
      t.contentAt? (d ++ [c.address] ++ [name]) = some content → Takes (S.child c.address) name := by
    intro name content hplace hcontent
    rw [List.append_assoc] at hcontent
    obtain ⟨other, hother, hhas⟩ := (h.content _ _).mp hcontent
    obtain ⟨haddress, -⟩ := hplace.sameUnit hhas.isPlace
    obtain ⟨found, hfound, heq⟩ := hhas
    obtain rfl : name = found := by simpa using (List.cons.inj heq).2
    rw [haddress]
    exact (h.fits other hother).takes _ hfound
  rw [run_remove hfits.isPart_name]
  obtain ⟨hfirst, hgone⟩ := hdir.run_removeIfExists hfits.isPart_name fun content =>
    htakes _ content (Or.inl rfl)
  generalize ((FileAction.removeIfExists ((S.child c.address).child (c.name extension))).run t).2 = t₁
    at hfirst hgone ⊢
  have hne : d ++ [c.address] ++ [c.symbolsName extension] ≠
      d ++ [c.address] ++ [c.name extension] := by
    simpa using (UnitCopy.name_ne_symbolsName extension c).symm
  obtain ⟨hsecond, hgone'⟩ := (hfirst.reaches hdir).run_removeIfExists hfits.isPart_symbolsName
    fun content hcontent => by
      rw [contentAt?_congr (hfirst.node _ hne)] at hcontent
      exact htakes _ content (Or.inr rfl) hcontent
  generalize ((FileAction.removeIfExists ((S.child c.address).child (c.symbolsName extension))).run
    t₁).2 = t₂ at hsecond hgone' ⊢
  rw [← contentAt?_congr (hsecond.node _ hne.symm)] at hgone
  apply h.changed (c := c) ((hfirst.mono (UnitCopy.IsPlace.below d (Or.inl rfl))).trans
    (hsecond.mono (UnitCopy.IsPlace.below d (Or.inr rfl))))
  · exact fun other hother => ⟨fun hkept => hkept.1, fun hbefore => ⟨hbefore, hother⟩⟩
  · intro rest content hplace
    have hnone : t₂.contentAt? (d ++ rest) = none := by
      rw [List.append_assoc] at hgone hgone'
      rcases hplace with rfl | rfl
      · exact hgone
      · exact hgone'
    rw [hnone]
    constructor
    · exact fun hsome => by cases hsome
    · rintro ⟨other, ⟨-, hother⟩, hhas⟩
      exact absurd (hplace.sameUnit hhas.isPlace) hother
  · exact fun other hother hsame => absurd hsame hother.2

/-- Files written at the places of a unit that has none add its copy. -/
theorem added (h : Shelf S wd d extension copies t)
    (hagrees : t.AgreesOff (fun l => ∃ rest, c.IsPlace extension rest ∧ l = d ++ rest) t')
    (hnew : ∀ other, copies other → ¬c.SameUnit other)
    (himage : t'.contentAt? (d ++ [c.address, c.name extension]) = some c.image.bytes)
    (hsymbols : t'.contentAt? (d ++ [c.address, c.symbolsName extension]) = c.image.debug)
    (hfits : c.Fits S extension) (hhouse : t.node? (d ++ [c.address]) = some .directory) :
    Shelf S wd d extension (fun other => copies other ∨ other = c) t' := by
  have honly : ∀ rest content, c.IsPlace extension rest →
      ((∃ other, (copies other ∨ other = c) ∧ other.Has extension rest content) ↔
        c.Has extension rest content) := by
    intro rest content hplace
    constructor
    · rintro ⟨other, hother | rfl, hhas⟩
      · exact absurd (hplace.sameUnit hhas.isPlace) (hnew other hother)
      · exact hhas
    · exact fun hhas => ⟨c, Or.inr rfl, hhas⟩
  apply h.changed hagrees
  · intro other hother
    constructor
    · rintro (hbefore | rfl)
      · exact hbefore
      · exact absurd ⟨rfl, rfl⟩ hother
    · exact Or.inl
  · intro rest content hplace
    rw [honly rest content hplace]
    rcases hplace with rfl | rfl
    · rw [himage, UnitCopy.has_name_iff, Option.some.injEq, eq_comm]
    · rw [hsymbols, UnitCopy.has_symbolsName_iff]
  · rintro other (hbefore | rfl) hsame
    · exact absurd hsame (hnew other hbefore)
    · exact ⟨hfits, hhouse⟩

/-- At the places of a unit that has no copy there is no file. -/
theorem contentAt?_of_new (h : Shelf S wd d extension copies t)
    (hnew : ∀ other, copies other → ¬c.SameUnit other) {rest : Location}
    (hplace : c.IsPlace extension rest) : t.contentAt? (d ++ rest) = none := by
  cases hcontent : t.contentAt? (d ++ rest) with
  | none => rfl
  | some content =>
      obtain ⟨other, hother, hhas⟩ := (h.content _ _).mp hcontent
      exact absurd (hplace.sameUnit hhas.isPlace) (hnew other hother)

/-- With a slash in the extension the image would have to be in a directory of its own. -/
theorem refused_of_slash (h : Shelf S wd d extension copies t) (haddress : isAddress c.address = true)
    (hslash : '/' ∈ extension.toList) (content : ByteArray) :
    ∃ e, (FileOp.write ((S.child c.address).child (c.name extension)) content).apply t =
      .error e := by
  cases happly : (FileOp.write ((S.child c.address).child (c.name extension)) content).apply t with
  | error e => exact ⟨e, rfl⟩
  | ok t' =>
      exfalso
      have haddressName := isName_of_isAddress haddress
      obtain ⟨before, after, hextension, hbefore⟩ := List.eq_append_cons_of_mem hslash
      have hname : c.name extension =
          toString c.generation ++ ("." ++ String.ofList before) ++
            ("/" ++ String.ofList after) := by
        rw [UnitCopy.name_eq]
        apply String.toList_injective
        simp [hextension]
      have hfirst : IsPart (toString c.generation ++ ("." ++ String.ofList before)) := by
        apply ArtifactStore.isPart_label_append (Environment.isAddress_toString _)
        simpa using hbefore
      change t.update _ _ = _ at happly
      rw [update] at happly
      cases hlocate : t.locate ((S.child c.address).child (c.name extension)) with
      | error e =>
          rw [hlocate] at happly
          cases happly
      | ok l =>
          rw [Path.child, hname] at hlocate
          have hdirectory := directory_of_locate_slash hfirst
            (child_text_ne_empty haddressName S) _ hlocate
          rw [Path.destination_child hfirst, Path.destination_child haddressName.isPart,
            h.reaches.destination, List.append_assoc] at hdirectory
          have hlength := h.shallow _ hdirectory
          simp at hlength

/-- What becomes of the files of a copy once there is a directory for them: they are written, or
nothing is, or the image is there when the rest is refused. -/
theorem filled (h : Shelf S wd d extension copies t) (haddress : isAddress c.address = true)
    (hhouse : t.isDirectory (S.child c.address) = true)
    (hnew : ∀ other, copies other → ¬c.SameUnit other) :
    (∃ t', (Snapshot.steps (Snapshot.contentSteps
          (Snapshot.path S extension c.address c.generation) c.image)).run t = (.ok (), t') ∧
        Shelf S wd d extension (fun other => copies other ∨ other = c) t') ∨
      (∃ e, (Snapshot.steps (Snapshot.contentSteps
          (Snapshot.path S extension c.address c.generation) c.image)).run t = (.error e, t)) ∨
      ∃ e t', (Snapshot.steps (Snapshot.contentSteps
          (Snapshot.path S extension c.address c.generation) c.image)).run t = (.error e, t') ∧
        t'.isFile (Snapshot.path S extension c.address c.generation) = true := by
  rw [Snapshot.contentSteps, path_eq, List.cons_append, List.cons_append, List.nil_append]
  by_cases hslash : '/' ∈ extension.toList
  · obtain ⟨e, hrefused⟩ := h.refused_of_slash haddress hslash c.image.bytes
    rw [run_steps_cons, run_perform_error hrefused]
    exact Or.inr (Or.inl ⟨e, rfl⟩)
  obtain ⟨-, ⟨hsize, -⟩, hdirectory⟩ :=
    (isDirectory_child_iff (isName_of_isAddress haddress)).mp hhouse
  rw [h.reaches.destination] at hdirectory
  have hdir := h.reaches.child (isName_of_isAddress haddress) hsize hdirectory
  have hname := c.isPart_name hslash
  have hsymbolsName := c.isPart_symbolsName hslash
  have hfile : ∀ name, t.node? (d ++ [c.address] ++ [name]) ≠ some .directory := by
    intro name hnode
    rw [List.append_assoc] at hnode
    have hlength := h.shallow _ hnode
    simp at hlength
  have hne : d ++ [c.address] ++ [c.symbolsName extension] ≠
      d ++ [c.address] ++ [c.name extension] := by
    simpa using (UnitCopy.name_ne_symbolsName extension c).symm
  rcases hdir.run_writeRunnable hname (hfile _) c.image.bytes _ with
    ⟨t₁, hrun, htakes, hwritten, hcontent⟩ | ⟨e, hrun⟩
  · have hagrees := hwritten.mono (UnitCopy.IsPlace.below d (Or.inl rfl))
    rw [hrun]
    cases hdebug : c.image.debug with
    | none =>
        refine Or.inl ⟨t₁, rfl, h.added hagrees hnew ?_ ?_ ⟨haddress, hslash, hsize, ?_⟩ hdirectory⟩
        · rw [← hcontent, List.append_assoc]
          rfl
        · rw [hdebug, ← h.contentAt?_of_new hnew (Or.inr rfl)]
          rw [List.append_assoc] at hne
          exact contentAt?_congr (hwritten.node _ hne)
        · rintro ⟨name, content⟩ hmem
          rcases UnitCopy.mem_files_iff.mp hmem with ⟨rfl, -⟩ | ⟨-, hsome⟩
          · exact htakes
          · rw [hdebug] at hsome
            cases hsome
    | some symbols =>
        have hfile' : t₁.node? (d ++ [c.address] ++ [c.symbolsName extension]) ≠
            some .directory := fun hnode => hfile _ ((hagrees.directory_iff _).mp hnode)
        dsimp only
        rw [← path_eq, symbolsPath_eq hname, run_steps_cons]
        rcases (hagrees.reaches hdir).run_write hsymbolsName hfile' symbols with
          ⟨t₂, hrun', htakes', hwritten', hcontent'⟩ | ⟨-, e, hrun'⟩
        · have hboth := hagrees.trans (hwritten'.mono (UnitCopy.IsPlace.below d (Or.inr rfl)))
          rw [hrun']
          refine Or.inl ⟨t₂, rfl, h.added hboth hnew ?_ ?_ ⟨haddress, hslash, hsize, ?_⟩ hdirectory⟩
          · rw [← hcontent, ← contentAt?_congr (hwritten'.node _ hne.symm), List.append_assoc]
            rfl
          · rw [hdebug, ← hcontent', List.append_assoc]
            rfl
          · rintro ⟨name, content⟩ hmem
            rcases UnitCopy.mem_files_iff.mp hmem with ⟨rfl, -⟩ | ⟨rfl, -⟩
            · exact htakes
            · exact htakes'
        · rw [hrun']
          refine Or.inr (Or.inr ⟨e, t₁, rfl, ?_⟩)
          obtain ⟨executable, hnode⟩ := contentAt?_eq_some_iff.mp hcontent
          exact ((hagrees.reaches hdir).isFile_iff hname).mpr ⟨htakes, _, _, hnode⟩
  · rw [hrun]
    exact Or.inr (Or.inl ⟨e, rfl⟩)

/-- A snapshot that is written without breaking off is one more copy, and one that is refused is
none. -/
theorem written (h : Shelf S wd d extension copies t) (haddress : isAddress request.address = true)
    (hnew : ∀ other, copies other → ¬request.copy.SameUnit other)
    (hwhole : Snapshot.breaksOff S extension request.copy t = false) :
    (∃ t', (Snapshot.write S extension request).run t =
          (.ok (Snapshot.path S extension request.address request.generation), t') ∧
        Shelf S wd d extension (fun other => copies other ∨ other = request.copy) t') ∨
      ∃ e t', (Snapshot.write S extension request).run t = (.error e, t') ∧
        Shelf S wd d extension copies t' := by
  have hmaking := making_createDirectory h.reaches (isName_of_isAddress haddress)
    (history_run (createDirectory (S.child request.address)) t)
  have hrun : (Snapshot.write S extension request).run t =
      match (createDirectory (S.child request.address)).run t with
      | (.error e, t₁) => (.error e, t₁)
      | (.ok _, t₁) =>
          match (Snapshot.steps (Snapshot.contentSteps
            (Snapshot.path S extension request.address request.generation) request.image)).run t₁ with
          | (.error e, t') => (.error e, t')
          | (.ok _, t') => (.ok (Snapshot.path S extension request.address request.generation), t') := by
    have hdirectory : Snapshot.directory S request.address = S.child request.address := rfl
    rw [Snapshot.write, run_bind, hdirectory]
    cases (createDirectory (S.child request.address)).run t with
    | mk result t₁ =>
        cases result with
        | error e => rfl
        | ok _ =>
            simp only [run_bind]
            cases (Snapshot.steps (Snapshot.contentSteps
              (Snapshot.path S extension request.address request.generation)
                request.image)).run t₁ with
            | mk result t' => cases result <;> rfl
  rw [Snapshot.breaksOff_copy] at hwhole
  rw [hrun] at hwhole ⊢
  cases hdirectory : (createDirectory (S.child request.address)).run t with
  | mk result t₁ =>
  rw [hdirectory] at hmaking hwhole
  have hshelf := h.making hmaking
  cases result with
  | error e => exact Or.inr ⟨e, t₁, rfl, hshelf⟩
  | ok _ =>
      have hfilled := hshelf.filled (c := request.copy) haddress (hmaking.made rfl) hnew
      simp only [BindRequest.copy_address, BindRequest.copy_generation, BindRequest.copy_image]
        at hfilled
      rcases hfilled with ⟨t', hfilled, hadded⟩ | ⟨e, hfilled⟩ | ⟨e, t', hfilled, hfile⟩
      · simp only [hfilled]
        exact Or.inl ⟨t', rfl, hadded⟩
      · simp only [hfilled]
        exact Or.inr ⟨e, t₁, rfl, hshelf⟩
      · simp only [hfilled, hfile] at hwhole
        cases hwhole

/-- At the places of a copy there is what it has, and nothing else. -/
theorem content?_iff (h : Shelf S wd d extension copies t) (hc : copies c)
    (honly : ∀ other, copies other → c.SameUnit other → other = c) {name : String}
    (hname : IsPart name) (hplace : c.IsPlace extension [c.address, name]) (content : ByteArray) :
    t.content? ((S.child c.address).child name) = some content ↔
      c.Has extension [c.address, name] content := by
  rw [(h.reaches_house hc).content?_iff hname, List.append_assoc, List.singleton_append, h.content]
  constructor
  · rintro ⟨-, other, hother, hhas⟩
    exact honly other hother (hplace.sameUnit hhas.isPlace) ▸ hhas
  · intro hhas
    obtain ⟨found, hfound, heq⟩ := hhas
    obtain rfl : name = found := by simpa using heq
    exact ⟨(h.fits c hc).takes _ hfound, c, hc, _, hfound, rfl⟩

/-- A copy is found where its path says, with its symbols if it has any. -/
theorem read (h : Shelf S wd d extension copies t) (hc : copies c)
    (honly : ∀ other, copies other → c.SameUnit other → other = c) :
    t.content? (Snapshot.path S extension c.address c.generation) = some c.image.bytes ∧
      t.content? (Snapshot.symbolsPath (Snapshot.path S extension c.address c.generation)) =
        c.image.debug := by
  have hfits := h.fits c hc
  refine ⟨?_, Option.ext fun content => ?_⟩
  · rw [path_eq, h.content?_iff hc honly hfits.isPart_name (Or.inl rfl), UnitCopy.has_name_iff]
  · rw [symbolsPath_eq hfits.isPart_name,
      h.content?_iff hc honly hfits.isPart_symbolsName (Or.inr rfl), UnitCopy.has_symbolsName_iff]

end Shelf

end Automation
