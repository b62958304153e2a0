import Automation.Proofs.Files.Moves

/-
What is in the files of a directory.

Whether a name can be looked up in a directory is a matter of the directory and of sizes; what is
found there is what the location has.  So two trees in which a path reaches the same directory
differ in its files only where they differ at the locations.
-/

namespace Automation

theorem Path.mem_child {c : Char} {name : String} (h : c ∈ name.toList) (p : Path) :
    c ∈ (p.child name).text.toList := by
  rw [child, join]
  split
  · exact h
  · split
    · simp [h]
    · simp [h]

namespace FileTree

/-- A name that is not too long below a path, and can be part of a path at all. -/
def Takes (p : Path) (name : String) : Prop := '\x00' ∉ name.toList ∧ Fits p name

instance (p : Path) (name : String) : Decidable (Takes p name) := by
  unfold Takes
  infer_instance

/-- The content of the file at a path. -/
def content? (t : FileTree) (p : Path) : Option ByteArray := (t.readBytes p).toOption

/-- The content of the file at a location. -/
def contentAt? (t : FileTree) (l : Location) : Option ByteArray :=
  match t.node? l with
  | some (.file content _) => some content
  | _ => none

variable {t t' : FileTree} {p : Path} {d l : Location} {name : String} {content : ByteArray}

theorem exists?_eq_false (h : ∀ l, t.locate p = .ok l → t.node? l = none) :
    t.exists? p = false := by
  rw [exists?, stat]
  cases hlocate : t.locate p with
  | error e => rfl
  | ok l => simp [h l hlocate]

theorem exists?_eq_true_iff :
    t.exists? p = true ↔ ∃ l n, t.locate p = .ok l ∧ t.node? l = some n := by
  rw [exists?, stat]
  cases hlocate : t.locate p with
  | error e => simp
  | ok l => cases hnode : t.node? l <;> simp [hnode]

theorem contentAt?_eq_some_iff :
    t.contentAt? l = some content ↔ ∃ executable, t.node? l = some (.file content executable) := by
  rw [contentAt?]
  split
  · next found executable hnode => simp [hnode]
  · next hnode =>
    simp only [reduceCtorEq, false_iff, not_exists]
    exact fun executable => hnode content executable

theorem contentAt?_congr {m : Location} (h : t'.node? m = t.node? l) :
    t'.contentAt? m = t.contentAt? l := by
  rw [contentAt?, contentAt?, h]

theorem contentAt?_eq_none_of_node? (h : t.node? l = none) : t.contentAt? l = none := by
  rw [contentAt?, h]

theorem content?_eq_some_iff :
    t.content? p = some content ↔ ∃ l, t.locate p = .ok l ∧ t.contentAt? l = some content := by
  rw [content?, readBytes, stat]
  cases hlocate : t.locate p with
  | error e => simp [Except.toOption]
  | ok l =>
      cases hnode : t.node? l with
      | none => simp [contentAt?, hnode, Except.toOption]
      | some n => cases n <;> simp [contentAt?, hnode, Except.toOption]

/-- A path that leads somewhere has no null character. -/
theorem noNul_of_locate (h : t.locate p = .ok l) : '\x00' ∉ p.text.toList := by
  intro hmem
  rw [locate] at h
  split at h
  · cases h
  · rw [if_pos (by simpa using hmem)] at h
    cases h

theorem isFile_eq_isSome (t : FileTree) (p : Path) : t.isFile p = (t.content? p).isSome := by
  rw [isFile, content?, readBytes]
  cases t.stat p with
  | error e => rfl
  | ok n => cases n <;> rfl

theorem isFile_eq_true_iff :
    t.isFile p = true ↔ ∃ l content executable,
      t.locate p = .ok l ∧ t.node? l = some (.file content executable) := by
  rw [isFile_eq_isSome, Option.isSome_iff_exists]
  constructor
  · rintro ⟨content, hcontent⟩
    obtain ⟨l, hlocate, hat⟩ := content?_eq_some_iff.mp hcontent
    obtain ⟨executable, hnode⟩ := contentAt?_eq_some_iff.mp hat
    exact ⟨l, content, executable, hlocate, hnode⟩
  · rintro ⟨l, content, executable, hlocate, hnode⟩
    exact ⟨content, content?_eq_some_iff.mpr
      ⟨l, hlocate, contentAt?_eq_some_iff.mpr ⟨executable, hnode⟩⟩⟩

theorem isDirectory_eq_true_iff :
    t.isDirectory p = true ↔ ∃ l, t.locate p = .ok l ∧ t.node? l = some .directory := by
  rw [isDirectory, stat]
  cases hlocate : t.locate p with
  | error e => simp
  | ok l =>
      cases hnode : t.node? l with
      | none => simp [hnode]
      | some n => cases n <;> simp [hnode]

/-- A part of a path that leads somewhere is a name. -/
theorem isName_of_locate_child (h : t.locate (p.child name) = .ok l) (hname : IsPart name) :
    IsName name :=
  hname.isName fun hmem => noNul_of_locate h (Path.mem_child hmem p)

/-- A name is found below a path only where the path reaches a directory. -/
theorem reaches_of_locate_child (h : t.locate (p.child name) = .ok l) (hname : IsPart name) :
    t.Reaches p (p.destination t.workingDirectory) :=
  ((locate_child_eq_ok_iff (isName_of_locate_child h hname)).mp h).1

namespace Reaches

/-- Below a path that reaches a directory a name leads to one place, if it can be looked up. -/
theorem locate_iff (h : t.Reaches p d) (hname : IsPart name) :
    t.locate (p.child name) = .ok l ↔ Takes p name ∧ l = d ++ [name] := by
  by_cases hnul : '\x00' ∈ name.toList
  · have hmem := Path.mem_child hnul p
    constructor
    · exact fun hlocate => absurd hmem (noNul_of_locate hlocate)
    · rintro ⟨⟨hnot, _⟩, _⟩
      exact absurd hnul hnot
  · rw [locate_child_eq_ok_iff (hname.isName hnul), h.destination]
    exact ⟨fun ⟨_, hfits, hl⟩ => ⟨⟨hnul, hfits⟩, hl⟩, fun ⟨⟨_, hfits⟩, hl⟩ => ⟨h, hfits, hl⟩⟩

theorem content?_iff (h : t.Reaches p d) (hname : IsPart name) :
    t.content? (p.child name) = some content ↔
      Takes p name ∧ t.contentAt? (d ++ [name]) = some content := by
  rw [content?_eq_some_iff]
  constructor
  · rintro ⟨l, hlocate, hat⟩
    obtain ⟨htakes, rfl⟩ := (h.locate_iff hname).mp hlocate
    exact ⟨htakes, hat⟩
  · rintro ⟨htakes, hat⟩
    exact ⟨_, (h.locate_iff hname).mpr ⟨htakes, rfl⟩, hat⟩

theorem isFile_iff (h : t.Reaches p d) (hname : IsPart name) :
    t.isFile (p.child name) = true ↔ Takes p name ∧
      ∃ content executable, t.node? (d ++ [name]) = some (.file content executable) := by
  rw [isFile_eq_true_iff]
  constructor
  · rintro ⟨l, content, executable, hlocate, hnode⟩
    obtain ⟨htakes, rfl⟩ := (h.locate_iff hname).mp hlocate
    exact ⟨htakes, content, executable, hnode⟩
  · rintro ⟨htakes, content, executable, hnode⟩
    exact ⟨_, content, executable, (h.locate_iff hname).mpr ⟨htakes, rfl⟩, hnode⟩

theorem isDirectory_iff (h : t.Reaches p d) (hname : IsPart name) :
    t.isDirectory (p.child name) = true ↔
      Takes p name ∧ t.node? (d ++ [name]) = some .directory := by
  rw [isDirectory_eq_true_iff]
  constructor
  · rintro ⟨l, hlocate, hnode⟩
    obtain ⟨htakes, rfl⟩ := (h.locate_iff hname).mp hlocate
    exact ⟨htakes, hnode⟩
  · rintro ⟨htakes, hnode⟩
    exact ⟨_, (h.locate_iff hname).mpr ⟨htakes, rfl⟩, hnode⟩

/-- A file is seen the same where the directory is reached and the location has the same. -/
theorem content?_congr (h : t.Reaches p d) (h' : t'.Reaches p d) (hname : IsPart name)
    (hcontent : t'.contentAt? (d ++ [name]) = t.contentAt? (d ++ [name])) :
    t'.content? (p.child name) = t.content? (p.child name) := by
  refine Option.ext fun content => ?_
  rw [h.content?_iff hname, h'.content?_iff hname, hcontent]

theorem isFile_congr (h : t.Reaches p d) (h' : t'.Reaches p d) (hname : IsPart name)
    (hcontent : t'.contentAt? (d ++ [name]) = t.contentAt? (d ++ [name])) :
    t'.isFile (p.child name) = t.isFile (p.child name) := by
  rw [isFile_eq_isSome, isFile_eq_isSome, h.content?_congr h' hname hcontent]

/-- What a path leads through reaches a directory as well. -/
theorem parent (h : t.Reaches (p.child name) l) (hname : IsName name) :
    t.Reaches p (p.destination t.workingDirectory) := by
  have hwalk := h.walkable
  rw [Path.names_child hname.isPart, Path.origin, Path.isAbsolute_child hname.isPart] at hwalk
  obtain ⟨hfirst, hdirectory, _⟩ := walkable_append.mp hwalk
  exact ⟨(Path.nul_notMem_child hname).mp h.noNul, hfirst, hdirectory, rfl⟩

variable {q : Path} {e : Location} {other : String}

/-- What it took to rename a file in one directory to a name in another one, and what it did. -/
theorem moved_of_rename (h : t.Reaches p d) (h' : t.Reaches q e) (hname : IsPart name)
    (hother : IsPart other) (hfile : t.isFile (p.child name) = true)
    (hrename : t.rename (p.child name) (q.child other) = .ok t') :
    Takes q other ∧ t.Moved t' (d ++ [name]) (e ++ [other]) := by
  obtain ⟨htakes, content, executable, hnode⟩ := (h.isFile_iff hname).mp hfile
  obtain ⟨m, hlocate, hmoved⟩ :=
    FileTree.moved_of_rename hrename ((h.locate_iff hname).mpr ⟨htakes, rfl⟩) hnode
  obtain ⟨htakes', rfl⟩ := (h'.locate_iff hother).mp hlocate
  exact ⟨htakes', hmoved⟩

/-- A file can be renamed to a name that can be looked up, unless that is a directory. -/
theorem exists_rename (h : t.Reaches p d) (h' : t.Reaches q e) (hname : IsPart name)
    (hother : IsPart other) (hfile : t.isFile (p.child name) = true) (htakes : Takes q other)
    (hfree : t.node? (e ++ [other]) ≠ some .directory) :
    ∃ t', t.rename (p.child name) (q.child other) = .ok t' ∧
      t.Moved t' (d ++ [name]) (e ++ [other]) := by
  obtain ⟨htakes', content, executable, hnode⟩ := (h.isFile_iff hname).mp hfile
  obtain ⟨t', hrename⟩ := exists_rename_of_locate ((h.locate_iff hname).mpr ⟨htakes', rfl⟩) hnode
    ((h'.locate_iff hother).mpr ⟨htakes, rfl⟩) hfree
  exact ⟨t', hrename, (h.moved_of_rename h' hname hother hfile hrename).2⟩

end Reaches

end FileTree

end Automation
