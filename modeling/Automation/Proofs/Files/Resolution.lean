import Automation.Files.Operation
import Automation.Proofs.Lines

/-
Where paths lead.

As far as its text goes, a path leads from one location to another whatever files there are; the
files only decide whether it can be walked.  So an operation on a path touches the location that
the text says, or nothing.
-/

namespace Automation

namespace FileTree

/-- One name further, as far as the text goes. -/
def follow (here : Location) (name : String) : Location :=
  if name = "." then here else if name = ".." then here.dropLast else here ++ [name]

/-- Where some names lead from a location. -/
def lead (here : Location) (names : List String) : Location := names.foldl follow here

@[simp] theorem lead_nil (here : Location) : lead here [] = here := rfl

@[simp] theorem lead_cons (here : Location) (name : String) (rest : List String) :
    lead here (name :: rest) = lead (follow here name) rest := rfl

theorem lead_append (here : Location) (first second : List String) :
    lead here (first ++ second) = lead (lead here first) second :=
  List.foldl_append

/-- Every one of the names is looked up in a directory, and none is too long. -/
def Walkable (t : FileTree) : Location → List String → Prop
  | _, [] => True
  | here, name :: rest =>
      t.node? here = some .directory ∧ name.utf8ByteSize ≤ nameLimit ∧
        Walkable t (follow here name) rest

theorem walkable_append {t : FileTree} {here : Location} {first second : List String} :
    t.Walkable here (first ++ second) ↔
      t.Walkable here first ∧ t.Walkable (lead here first) second := by
  induction first generalizing here with
  | nil => simp [Walkable]
  | cons name rest ih => simp [Walkable, ih, and_assoc]

/-- A walk passes only through directories that names on the way lead to. -/
theorem Walkable.mono {t t' : FileTree} {here : Location} {names : List String}
    (h : t.Walkable here names)
    (hkept : ∀ before, before <+: names → t.node? (lead here before) = some .directory →
      t'.node? (lead here before) = some .directory) :
    t'.Walkable here names := by
  induction names generalizing here with
  | nil => trivial
  | cons name rest ih =>
      obtain ⟨hhere, hsize, hrest⟩ := h
      refine ⟨hkept [] List.nil_prefix hhere, hsize, ih hrest fun before hbefore hdirectory => ?_⟩
      exact hkept (name :: before) (List.cons_prefix_cons.mpr ⟨rfl, hbefore⟩) hdirectory

/-- In a directory a name that is not too long is followed. -/
theorem walk_cons_of_directory {t : FileTree} {here : Location} (h : t.node? here = some .directory)
    (name : String) (rest : List String) :
    t.walk here (name :: rest) =
      if nameLimit < name.utf8ByteSize then .error .nameTooLong
      else t.walk (follow here name) rest := by
  rw [walk, follow, h]
  dsimp only
  split
  · rfl
  · split
    · rfl
    · split <;> rfl

/-- Names that can be walked lead where their text says. -/
theorem walk_eq_ok_iff {t : FileTree} {here l : Location} {names : List String} :
    t.walk here names = .ok l ↔ t.Walkable here names ∧ l = lead here names := by
  induction names generalizing here with
  | nil => simp [walk, Walkable, eq_comm]
  | cons name rest ih =>
      have hstep : t.walk here (name :: rest) = .ok l ↔
          t.node? here = some .directory ∧ name.utf8ByteSize ≤ nameLimit ∧
            t.walk (follow here name) rest = .ok l := by
        by_cases hnode : t.node? here = some .directory
        · rw [walk_cons_of_directory hnode]
          by_cases hsize : nameLimit < name.utf8ByteSize
          · simp [hsize, Nat.not_le.mpr hsize]
          · simp [hnode, hsize, Nat.not_lt.mp hsize]
        · rw [walk]
          split
          · simp [hnode]
          · simp [hnode]
          · next hdirectory => exact absurd hdirectory hnode
      rw [hstep, ih, Walkable, lead_cons, and_assoc, and_assoc]

end FileTree

/-- A name that makes one part of a path and stands for itself there. -/
structure IsPart (name : String) : Prop where
  ne_empty : name ≠ ""
  ne_here : name ≠ "."
  ne_up : name ≠ ".."
  noSlash : '/' ∉ name.toList

/-- A part of a path that a file can be called. -/
structure IsName (name : String) : Prop where
  ne_empty : name ≠ ""
  ne_here : name ≠ "."
  ne_up : name ≠ ".."
  noSlash : '/' ∉ name.toList
  noNul : '\x00' ∉ name.toList

theorem IsName.isPart {name : String} (h : IsName name) : IsPart name :=
  ⟨h.ne_empty, h.ne_here, h.ne_up, h.noSlash⟩

theorem IsPart.isName {name : String} (h : IsPart name) (hnul : '\x00' ∉ name.toList) :
    IsName name :=
  ⟨h.ne_empty, h.ne_here, h.ne_up, h.noSlash, hnul⟩

theorem IsPart.follow {name : String} (h : IsPart name) (here : Location) :
    FileTree.follow here name = here ++ [name] := by
  rw [FileTree.follow, if_neg h.ne_here, if_neg h.ne_up]

/-- Names that stand for themselves lead straight down. -/
theorem lead_isPart {names : List String} (h : ∀ name ∈ names, IsPart name) (here : Location) :
    FileTree.lead here names = here ++ names := by
  induction names generalizing here with
  | nil => simp
  | cons name rest ih =>
      rw [FileTree.lead_cons, (h name List.mem_cons_self).follow,
        ih fun other hother => h other (List.mem_cons_of_mem name hother), List.append_assoc]
      rfl

namespace Path

/-- The names between the slashes of a text. -/
def namesOf (cs : List Char) : List String :=
  ((Text.splitAt '/' cs).map String.ofList).filter (· ≠ "")

theorem namesOf_nil : namesOf [] = [] := by decide

theorem namesOf_append_slash (first second : List Char) :
    namesOf (first ++ '/' :: second) = namesOf first ++ namesOf second := by
  rw [namesOf, Text.splitAt_append_cons, List.map_append, List.filter_append]
  rfl

theorem namesOf_name {name : String} (h : IsPart name) : namesOf name.toList = [name] := by
  rw [namesOf, Text.splitAt_of_notMem '/' h.noSlash]
  simp [h.ne_empty]

/-- The names of a path. -/
def names (p : Path) : List String := namesOf p.text.toList

/-- Where a path starts from. -/
def origin (wd : Location) (p : Path) : Location := if p.isAbsolute then [] else wd

/-- Where a path leads, as far as its text goes. -/
def destination (wd : Location) (p : Path) : Location := FileTree.lead (p.origin wd) p.names

end Path

namespace Path

variable {p : Path} {name : String}

theorem isAbsolute_mk (h : IsPart name) : (Path.mk name).isAbsolute = false := by
  rw [isAbsolute]
  cases hcs : name.toList with
  | nil => rfl
  | cons c cs =>
      have hne : c ≠ '/' := by
        rintro rfl
        exact h.noSlash (by simp [hcs])
      simp [hne]

/-- Between a path and a name below it there is one slash, unless the path is empty or ends in
one already. -/
theorem child_cases (h : IsPart name) (p : Path) :
    (p.text = "" ∧ (p.child name).text.toList = name.toList) ∨
      (p.text ≠ "" ∧ ∃ cs, p.text.toList = cs ++ ['/'] ∧
        (p.child name).text.toList = cs ++ '/' :: name.toList) ∨
      (p.text ≠ "" ∧ (p.child name).text.toList = p.text.toList ++ '/' :: name.toList) := by
  rw [child, join, isAbsolute_mk h, Bool.false_or]
  by_cases hempty : p.text = ""
  · exact Or.inl ⟨hempty, by simp [hempty]⟩
  · have hsome : p.text.isEmpty = false := by simpa [String.isEmpty_iff] using hempty
    rw [hsome]
    by_cases hlast : p.text.toList.getLast? = some '/'
    · obtain ⟨cs, hcs⟩ := List.getLast?_eq_some_iff.mp hlast
      refine Or.inr (Or.inl ⟨hempty, cs, hcs, ?_⟩)
      simp [hcs]
    · refine Or.inr (Or.inr ⟨hempty, ?_⟩)
      simp [hlast]

/-- The names of a path that continues another one come after its names. -/
theorem names_join {q : Path} (hp : p.text ≠ "") (hq : q.isAbsolute = false) :
    (p.join q).names = p.names ++ q.names := by
  have hsome : p.text.isEmpty = false := by simpa [String.isEmpty_iff] using hp
  rw [join, hq, hsome, Bool.false_or, if_neg Bool.false_ne_true]
  split
  · next hlast =>
    obtain ⟨cs, hcs⟩ := List.getLast?_eq_some_iff.mp hlast
    have htext : (p.text ++ q.text).toList = cs ++ '/' :: q.text.toList := by simp [hcs]
    rw [names, names, names, htext, hcs, namesOf_append_slash, namesOf_append_slash, namesOf_nil,
      List.append_nil]
  · have htext : (p.text ++ "/" ++ q.text).toList = p.text.toList ++ '/' :: q.text.toList := by
      simp
    rw [names, names, names, htext, namesOf_append_slash]

theorem names_child (h : IsPart name) : (p.child name).names = p.names ++ [name] := by
  have hname : (Path.mk name).names = [name] := namesOf_name h
  by_cases hempty : p.text = ""
  · have hchild : p.child name = ⟨name⟩ := by
      rw [child, join, hempty]
      simp
    have hnone : p.names = [] := by
      rw [names, hempty]
      exact namesOf_nil
    rw [hchild, hname, hnone, List.nil_append]
  · rw [child, names_join hempty (isAbsolute_mk h), hname]

theorem isAbsolute_child (h : IsPart name) : (p.child name).isAbsolute = p.isAbsolute := by
  rw [isAbsolute, isAbsolute]
  rcases child_cases h p with ⟨hempty, hchild⟩ | ⟨_, cs, htext, hchild⟩ | ⟨hne, hchild⟩
  · rw [hchild, hempty]
    exact isAbsolute_mk h
  · rw [hchild, htext]
    cases cs <;> rfl
  · rw [hchild]
    cases hcs : p.text.toList with
    | nil => exact absurd (by simpa using hcs) hne
    | cons c rest => rfl

@[simp] theorem destination_child (h : IsPart name) (wd : Location) :
    (p.child name).destination wd = p.destination wd ++ [name] := by
  rw [destination, destination, origin, origin, isAbsolute_child h, names_child h,
    FileTree.lead_append, FileTree.lead_cons, h.follow, FileTree.lead_nil]

/-- The way to a name below a path is the way of the path, and then the name. -/
theorem lead_of_isPrefix_child (h : IsPart name) {wd : Location} {before : List String}
    (hbefore : before <+: (p.child name).names) :
    FileTree.lead ((p.child name).origin wd) before = p.destination wd ++ [name] ∨
      before <+: p.names ∧ FileTree.lead ((p.child name).origin wd) before =
        FileTree.lead (p.origin wd) before := by
  have hnames := names_child (p := p) h
  rw [hnames, List.prefix_concat_iff, ← hnames] at hbefore
  rcases hbefore with rfl | hbefore
  · exact Or.inl (destination_child h wd)
  · refine Or.inr ⟨hbefore, ?_⟩
    rw [origin, origin, isAbsolute_child h]

/-- The bytes of a path below this one, without those of the name. -/
def sizeBelow (p : Path) : Nat := (p.child "").text.utf8ByteSize

theorem size_child (h : IsName name) (p : Path) :
    (p.child name).text.utf8ByteSize = p.sizeBelow + name.utf8ByteSize := by
  have hnone : (Path.mk "").isAbsolute = false := by decide
  rw [sizeBelow, child, child, join, join, isAbsolute_mk h.isPart, hnone, Bool.false_or]
  split
  · simp
  · split <;> simp [String.utf8ByteSize_append]

/-- A path ends in the name below it, and in no slash. -/
theorem getLast?_child (h : IsName name) (p : Path) :
    ∃ c, c ≠ '/' ∧ (p.child name).text.toList.getLast? = some c := by
  have hne : name.toList ≠ [] := by simpa using h.ne_empty
  refine ⟨name.toList.getLast hne, ?_, ?_⟩
  · intro hslash
    exact h.noSlash (hslash ▸ List.getLast_mem hne)
  · have hlast : name.toList.getLast? = some (name.toList.getLast hne) :=
      List.getLast?_eq_some_getLast hne
    rcases child_cases h.isPart p with ⟨_, hchild⟩ | ⟨_, cs, _, hchild⟩ | ⟨_, hchild⟩
    · rw [hchild, hlast]
    · rw [hchild, List.getLast?_append, List.getLast?_cons, hlast]
      rfl
    · rw [hchild, List.getLast?_append, List.getLast?_cons, hlast]
      rfl

theorem sizeBelow_child (h : IsName name) (p : Path) :
    (p.child name).sizeBelow = p.sizeBelow + name.utf8ByteSize + 1 := by
  obtain ⟨c, hc, hlast⟩ := getLast?_child h p
  have hnone : (Path.mk "").isAbsolute = false := by decide
  have hne : (p.child name).text ≠ "" := by
    intro hempty
    rw [hempty] at hlast
    cases hlast
  have hbelow : (p.child name).sizeBelow = (p.child name).text.utf8ByteSize + 1 := by
    rw [sizeBelow, child, join, hnone, Bool.false_or, if_neg (by simpa using hne),
      if_neg (by rw [hlast]; simpa using hc)]
    rw [String.utf8ByteSize_append, String.utf8ByteSize_append]
    rfl
  rw [hbelow, size_child h]

/-- Only a path or a name with a null character has one when they are put together. -/
theorem nul_notMem_child (h : IsName name) :
    '\x00' ∉ (p.child name).text.toList ↔ '\x00' ∉ p.text.toList := by
  rcases child_cases h.isPart p with ⟨hempty, hchild⟩ | ⟨_, cs, htext, hchild⟩ | ⟨_, hchild⟩
  · simp [hchild, hempty, h.noNul]
  · simp [hchild, htext, h.noNul]
  · simp [hchild, h.noNul]

end Path

namespace FileTree

theorem walkNames_cases (p : Path) :
    walkNames p = p.names ∨ walkNames p = p.names ++ ["."] := by
  rw [walkNames, Path.names, Path.namesOf]
  split
  · exact Or.inr rfl
  · exact Or.inl rfl

/-- A path that leads somewhere leads where its text says. -/
theorem destination_of_locate {t : FileTree} {p : Path} {l : Location} (h : t.locate p = .ok l) :
    l = p.destination t.workingDirectory := by
  rw [locate] at h
  split at h
  · cases h
  split at h
  · cases h
  split at h
  · cases h
  obtain ⟨_, rfl⟩ := walk_eq_ok_iff.mp h
  rcases walkNames_cases p with hnames | hnames
  · rw [hnames]
    rfl
  · rw [hnames, lead_append]
    rfl

/-- A path all of whose parts are directories, however long it is. -/
structure Reaches (t : FileTree) (p : Path) (l : Location) : Prop where
  noNul : '\x00' ∉ p.text.toList
  walkable : t.Walkable (p.origin t.workingDirectory) p.names
  directory : t.node? l = some .directory
  destination : p.destination t.workingDirectory = l

/-- A name and the path that it ends are not too long. -/
def Fits (p : Path) (name : String) : Prop :=
  name.utf8ByteSize ≤ nameLimit ∧ (p.child name).text.utf8ByteSize ≤ pathLimit

instance (p : Path) (name : String) : Decidable (Fits p name) := by
  unfold Fits
  infer_instance

section

variable {t : FileTree} {p : Path} {l : Location} {name : String}

theorem walkNames_child (h : IsName name) (p : Path) :
    walkNames (p.child name) = p.names ++ [name] := by
  obtain ⟨c, hc, hlast⟩ := Path.getLast?_child h p
  have hnames := Path.names_child (p := p) h.isPart
  rw [Path.names, Path.namesOf] at hnames
  rw [walkNames, hnames, hlast]
  simp [hc]

theorem child_text_ne_empty (h : IsName name) (p : Path) : (p.child name).text ≠ "" := by
  obtain ⟨c, _, hlast⟩ := Path.getLast?_child h p
  intro hempty
  rw [hempty] at hlast
  cases hlast

/-- What it takes for a path to lead to a name in a directory. -/
theorem locate_child_eq_ok_iff (h : IsName name) {m : Location} :
    t.locate (p.child name) = .ok m ↔
      t.Reaches p (p.destination t.workingDirectory) ∧ Fits p name ∧
        m = p.destination t.workingDirectory ++ [name] := by
  have horigin : (if (p.child name).isAbsolute then [] else t.workingDirectory) =
      p.origin t.workingDirectory := by
    rw [Path.isAbsolute_child h.isPart, Path.origin]
  rw [locate, if_neg (child_text_ne_empty h p), horigin, walkNames_child h]
  constructor
  · intro hlocate
    split at hlocate
    · cases hlocate
    next hnul =>
    split at hlocate
    · cases hlocate
    next hsize =>
    obtain ⟨hwalk, rfl⟩ := walk_eq_ok_iff.mp hlocate
    obtain ⟨hwalk, hdirectory, hname, _⟩ := walkable_append.mp hwalk
    refine ⟨⟨?_, hwalk, hdirectory, rfl⟩, ⟨hname, Nat.not_lt.mp hsize⟩, ?_⟩
    · rw [← Path.nul_notMem_child h]
      simpa using hnul
    · rw [lead_append, lead_cons, h.isPart.follow]
      rfl
  · rintro ⟨hreaches, ⟨hname, hsize⟩, rfl⟩
    have hnul := (Path.nul_notMem_child h (p := p)).mpr hreaches.noNul
    rw [if_neg (by simpa using hnul), if_neg (Nat.not_lt.mpr hsize), walk_eq_ok_iff,
      walkable_append, lead_append, lead_cons, h.isPart.follow]
    exact ⟨⟨hreaches.walkable, hreaches.directory, hname, trivial⟩, rfl⟩

theorem Reaches.locate_child (h : t.Reaches p l) (hname : IsName name) (hfits : Fits p name) :
    t.locate (p.child name) = .ok (l ++ [name]) := by
  obtain rfl := h.destination
  exact (locate_child_eq_ok_iff hname).mpr ⟨h, hfits, rfl⟩

/-- Below a path that reaches a directory there is another one. -/
theorem Reaches.child (h : t.Reaches p l) (hname : IsName name)
    (hsize : name.utf8ByteSize ≤ nameLimit)
    (hdirectory : t.node? (l ++ [name]) = some .directory) :
    t.Reaches (p.child name) (l ++ [name]) := by
  refine ⟨(Path.nul_notMem_child hname).mpr h.noNul, ?_, hdirectory, ?_⟩
  · rw [Path.names_child hname.isPart, Path.origin, Path.isAbsolute_child hname.isPart]
    refine walkable_append.mpr ⟨h.walkable, ?_, hsize, trivial⟩
    rw [← h.directory, ← h.destination]
    rfl
  · rw [Path.destination_child hname.isPart, h.destination]

/-- What reaches a directory goes on to reach it while the directories on its way stay. -/
theorem Reaches.mono {t' : FileTree} (h : t.Reaches p l)
    (hwd : t'.workingDirectory = t.workingDirectory)
    (hkept : ∀ before, before <+: p.names →
      t.node? (lead (p.origin t.workingDirectory) before) = some .directory →
        t'.node? (lead (p.origin t.workingDirectory) before) = some .directory) :
    t'.Reaches p l := by
  refine ⟨h.noNul, ?_, ?_, ?_⟩
  · rw [hwd]
    exact h.walkable.mono hkept
  · have hend : lead (p.origin t.workingDirectory) p.names = l := h.destination
    have hdirectory := h.directory
    rw [← hend] at hdirectory ⊢
    exact hkept p.names List.prefix_rfl hdirectory
  · rw [hwd]
    exact h.destination

end

end FileTree

namespace Path

/-- Slashes at the end of a text name nothing. -/
theorem namesOf_append_slashes (cs : List Char) {slashes : List Char}
    (h : ∀ c ∈ slashes, c = '/') : namesOf (cs ++ slashes) = namesOf cs := by
  induction slashes generalizing cs with
  | nil => rw [List.append_nil]
  | cons c rest ih =>
      obtain rfl := h c List.mem_cons_self
      have hrest : namesOf rest = [] := by
        have hnil := ih [] fun c hc => h c (List.mem_cons_of_mem _ hc)
        rwa [List.nil_append, namesOf_nil] at hnil
      rw [namesOf_append_slash, hrest, List.append_nil]

theorem names_withoutSlashes (p : Path) :
    (FileTree.withoutSlashes p).names = p.names ∧
      (FileTree.withoutSlashes p).isAbsolute = p.isAbsolute := by
  have hsplit : p.text.toList = (p.text.toList.reverse.dropWhile (· = '/')).reverse ++
      (p.text.toList.reverse.takeWhile (· = '/')).reverse := by
    rw [← List.reverse_append, List.takeWhile_append_dropWhile, List.reverse_reverse]
  have hslashes : ∀ c ∈ (p.text.toList.reverse.takeWhile (· = '/')).reverse, c = '/' := by
    intro c hc
    simpa using List.all_eq_true.mp List.all_takeWhile c (List.mem_reverse.mp hc)
  rw [FileTree.withoutSlashes]
  split
  · exact ⟨rfl, rfl⟩
  · next hne =>
    rw [isAbsolute, isAbsolute, names, names, String.toList_ofList]
    have hnames := namesOf_append_slashes
      (p.text.toList.reverse.dropWhile (· = '/')).reverse hslashes
    rw [← hsplit] at hnames
    have hhead : (p.text.toList.reverse.dropWhile (· = '/')).reverse.head? =
        p.text.toList.head? := by
      conv_rhs => rw [hsplit]
      rw [List.head?_append_of_ne_nil]
      simpa using hne
    rw [hnames, hhead]
    exact ⟨rfl, rfl⟩

theorem destination_withoutSlashes (p : Path) (wd : Location) :
    (FileTree.withoutSlashes p).destination wd = p.destination wd := by
  obtain ⟨hnames, habsolute⟩ := names_withoutSlashes p
  rw [destination, destination, origin, origin, hnames, habsolute]

/-- What is dropped from the end of a text starts at a slash, unless nothing is dropped or only the
root is left. -/
theorem trimTail_spec (cs : List Char) :
    ∃ dropped, cs = dropped ++ trimTail cs ∧
      (dropped = [] ∧ cs.head? ≠ some '/' ∨ dropped.getLast? = some '/' ∨ trimTail cs = ['/']) := by
  fun_induction trimTail cs with
  | case1 => exact ⟨[], rfl, Or.inr (Or.inr rfl)⟩
  | case2 rest hrest ih =>
      obtain ⟨dropped, hcs, hend⟩ := ih
      refine ⟨'/' :: dropped, by rw [List.cons_append, ← hcs], Or.inr ?_⟩
      rcases hend with ⟨rfl, _⟩ | hlast | hroot
      · exact Or.inl rfl
      · exact Or.inl (by rw [List.getLast?_cons, hlast]; rfl)
      · exact Or.inr hroot
  | case3 rest ih =>
      obtain ⟨dropped, hcs, hend⟩ := ih
      refine ⟨'.' :: dropped, by rw [List.cons_append, ← hcs], Or.inr ?_⟩
      rcases hend with ⟨_, hhead⟩ | hlast | hroot
      · exact absurd rfl hhead
      · exact Or.inl (by rw [List.getLast?_cons, hlast]; rfl)
      · exact Or.inr hroot
  | case4 cs hroot hslash hdot =>
      refine ⟨[], rfl, Or.inl ⟨rfl, fun hhead => ?_⟩⟩
      obtain ⟨rest, rfl⟩ := List.head?_eq_some_iff.mp hhead
      exact hslash rest rfl

/-- A text that goes on with a slash has the names before it first. -/
theorem names_of_slash {p : Path} {before : List Char} (after : List Char)
    (htext : p.text.toList = before ++ '/' :: after) :
    (Path.mk (String.ofList before)).text = "" ∨
      (Path.mk (String.ofList before)).names <+: p.names ∧
        (Path.mk (String.ofList before)).isAbsolute = p.isAbsolute := by
  by_cases hempty : before = []
  · exact Or.inl (by simp [hempty])
  · refine Or.inr ⟨?_, ?_⟩
    · rw [names, names, htext, namesOf_append_slash, String.toList_ofList]
      exact List.prefix_append _ _
    · rw [isAbsolute, isAbsolute, htext, String.toList_ofList,
        List.head?_append_of_ne_nil _ hempty]

/-- What is left of the front of a text that ends in a slash has the first names of it. -/
theorem names_trimTail {p q : Path} {cs : List Char} (more : List Char)
    (hp : p.text.toList = cs.reverse ++ more) (hcs : cs = [] ∨ cs.head? = some '/')
    (hq : q.text.toList = (trimTail cs).reverse) :
    q.text = "" ∨ q.names <+: p.names ∧ q.isAbsolute = p.isAbsolute := by
  obtain ⟨dropped, hdropped, hend⟩ := trimTail_spec cs
  generalize trimTail cs = kept at hdropped hend hq
  have hkept : q = ⟨String.ofList kept.reverse⟩ := by
    rw [← hq, String.ofList_toList]
  subst hkept
  rw [hdropped, List.reverse_append, List.append_assoc] at hp
  rcases hend with ⟨rfl, hhead⟩ | hlast | rfl
  · rcases hcs with rfl | hslash
    · left
      simpa using hdropped.symm
    · exact absurd hslash hhead
  · obtain ⟨first, rfl⟩ := List.getLast?_eq_some_iff.mp hlast
    refine names_of_slash (first.reverse ++ more) ?_
    rw [hp]
    simp
  · refine Or.inr ⟨?_, ?_⟩
    · have hroot : (Path.mk (String.ofList ['/'].reverse)).names = [] := by decide
      rw [hroot]
      exact List.nil_prefix
    · rw [isAbsolute, isAbsolute, hp]
      simp

/-- The directory above a path is the empty path, or has the first names of it. -/
theorem names_parent {p q : Path} (h : p.parent? = some q) :
    q.text = "" ∨ q.names <+: p.names ∧ q.isAbsolute = p.isAbsolute := by
  obtain ⟨tail, htail, _⟩ := trimTail_spec p.text.toList.reverse
  have hq : q = ⟨String.ofList (trimTail (p.reversedTail.dropWhile (· ≠ '/'))).reverse⟩ := by
    rw [parent?] at h
    split at h
    · cases h
    · cases h
    · exact (Option.some.inj h).symm
  have htext : p.text.toList = (p.reversedTail.dropWhile (· ≠ '/')).reverse ++
      ((p.reversedTail.takeWhile (· ≠ '/')).reverse ++ tail.reverse) := by
    rw [← List.append_assoc, ← List.reverse_append, ← List.reverse_append,
      List.takeWhile_append_dropWhile, reversedTail, ← htail, List.reverse_reverse]
  refine names_trimTail _ htext ?_ (by rw [hq, String.toList_ofList])
  cases hdrop : p.reversedTail.dropWhile (· ≠ '/') with
  | nil => exact Or.inl rfl
  | cons c rest =>
      right
      have hnot := List.head?_dropWhile_not (· ≠ '/') p.reversedTail
      rw [hdrop] at hnot
      simpa using hnot

/-- Nothing is above the empty path. -/
theorem text_of_mem_ancestorsUpTo {p a : Path} {height : Nat} (hp : p.text = "")
    (h : a ∈ ancestorsUpTo height p) : a.text = "" := by
  obtain ⟨text⟩ := p
  subst hp
  have hnone : (Path.mk "").parent? = none := by
    simp [parent?, reversedTail, trimTail]
  cases height with
  | zero => exact congrArg Path.text (List.mem_singleton.mp h)
  | succ height =>
      rw [ancestorsUpTo, hnone] at h
      exact congrArg Path.text (List.mem_singleton.mp h)

theorem names_of_mem_ancestorsUpTo {p a : Path} {height : Nat} (h : a ∈ ancestorsUpTo height p) :
    a.text = "" ∨ a.names <+: p.names ∧ a.isAbsolute = p.isAbsolute := by
  induction height generalizing p with
  | zero =>
      obtain rfl := List.mem_singleton.mp h
      exact Or.inr ⟨List.prefix_rfl, rfl⟩
  | succ height ih =>
      rw [ancestorsUpTo] at h
      cases hparent : p.parent? with
      | none =>
          rw [hparent] at h
          obtain rfl := List.mem_singleton.mp h
          exact Or.inr ⟨List.prefix_rfl, rfl⟩
      | some q =>
          rw [hparent] at h
          rcases List.mem_cons.mp h with rfl | h
          · exact Or.inr ⟨List.prefix_rfl, rfl⟩
          · rcases names_parent hparent with hempty | ⟨hfirst, habsolute⟩
            · exact Or.inl (text_of_mem_ancestorsUpTo hempty h)
            · rcases ih h with hempty | ⟨hfirst', habsolute'⟩
              · exact Or.inl hempty
              · exact Or.inr ⟨hfirst'.trans hfirst, habsolute'.trans habsolute⟩

/-- Where the directories above a path lead, the path leads on the way, save for the empty path. -/
theorem names_of_mem_ancestors {p a : Path} (h : a ∈ p.ancestors) :
    a.text = "" ∨ a.names <+: p.names ∧ a.isAbsolute = p.isAbsolute :=
  names_of_mem_ancestorsUpTo h

/-- From the end on, a path below another one is a name and then nothing or a slash. -/
theorem reverse_text_child {name : String} (h : IsPart name) (p : Path) :
    ∃ tail, (p.child name).text.toList.reverse = name.toList.reverse ++ tail ∧
      (tail = [] ∨ tail.head? = some '/') := by
  rcases child_cases h p with ⟨_, hchild⟩ | ⟨_, cs, _, hchild⟩ | ⟨_, hchild⟩
  · exact ⟨[], by simp [hchild], Or.inl rfl⟩
  · exact ⟨'/' :: cs.reverse, by simp [hchild], Or.inr rfl⟩
  · exact ⟨'/' :: p.text.toList.reverse, by simp [hchild], Or.inr rfl⟩

/-- Nothing is dropped from the end of a path that ends in a name. -/
theorem reversedTail_child {name : String} (h : IsPart name) (p : Path) :
    (p.child name).reversedTail = (p.child name).text.toList.reverse := by
  obtain ⟨tail, htext, _⟩ := reverse_text_child h p
  have hnoSlash : '/' ∉ name.toList.reverse := by simpa using h.noSlash
  rw [reversedTail, htext]
  cases hcs : name.toList.reverse with
  | nil => exact absurd (by simpa using hcs) h.ne_empty
  | cons c rest =>
      rw [hcs] at hnoSlash
      have hc : c ≠ '/' := fun heq => hnoSlash (heq ▸ List.mem_cons_self)
      refine trimTail.eq_4 _ ?_ ?_ ?_
      · intro heq
        exact hc (List.cons.inj heq).1
      · intro others heq
        exact hc (List.cons.inj heq).1
      · intro others heq
        obtain ⟨hdot, heq⟩ := List.cons.inj heq
        cases rest with
        | nil =>
            -- The name would be a single dot.
            refine h.ne_here (String.toList_inj.mp ?_)
            rw [← List.reverse_reverse name.toList, hcs, hdot]
            rfl
        | cons second rest =>
            refine hnoSlash (List.mem_cons_of_mem c ?_)
            rw [(List.cons.inj heq).1]
            exact List.mem_cons_self

/-- The name at the end of a path below another one. -/
theorem fileName?_child {name : String} (h : IsPart name) (p : Path) :
    (p.child name).fileName? = some name := by
  obtain ⟨tail, htext, htail⟩ := reverse_text_child h p
  have hnoSlash : '/' ∉ name.toList.reverse := by simpa using h.noSlash
  have htake : (name.toList.reverse ++ tail).takeWhile (· ≠ '/') = name.toList.reverse := by
    rw [List.takeWhile_append_of_pos fun c hc => by
      simpa using fun heq : c = '/' => hnoSlash (heq ▸ hc)]
    rcases htail with rfl | hhead
    · simp
    · obtain ⟨rest, rfl⟩ := List.head?_eq_some_iff.mp hhead
      simp
  rw [fileName?, reversedTail_child h, htext, htake]
  simp [h.ne_empty, h.ne_here, h.ne_up]

/-- The directory above a name in a directory has none but names of that. -/
theorem names_parent_child {p q : Path} {name : String} (h : IsName name)
    (hq : (p.child name).parent? = some q) :
    q.text = "" ∨ q.names <+: p.names ∧ q.isAbsolute = p.isAbsolute := by
  have hne : name.toList ≠ [] := by simpa using h.ne_empty
  have hdrop : ∀ tail : List Char, tail = [] ∨ tail.head? = some '/' →
      (name.toList.reverse ++ tail).dropWhile (· ≠ '/') = tail := by
    intro tail htail
    rw [List.dropWhile_append_of_pos fun c hc => by
      simpa using fun heq : c = '/' => h.noSlash (heq ▸ List.mem_reverse.mp hc)]
    rcases htail with rfl | hhead
    · rfl
    · obtain ⟨rest, rfl⟩ := List.head?_eq_some_iff.mp hhead
      simp
  obtain ⟨cs, hcs, htrim⟩ : ∃ cs, (p.child name).text.toList.reverse.dropWhile (· ≠ '/') = cs ∧
      q.text.toList = (trimTail cs).reverse := by
    refine ⟨_, rfl, ?_⟩
    rw [parent?, reversedTail_child h.isPart] at hq
    split at hq
    · cases hq
    · cases hq
    · rw [← Option.some.inj hq, String.toList_ofList]
  rcases child_cases h.isPart p with ⟨_, hchild⟩ | ⟨_, before, htext, hchild⟩ | ⟨hsome, hchild⟩
  · have hnil := hdrop [] (Or.inl rfl)
    rw [List.append_nil] at hnil
    rw [hchild, hnil] at hcs
    subst hcs
    exact names_trimTail p.text.toList (by simp) (Or.inl rfl) htrim
  · rw [hchild, List.reverse_append, List.reverse_cons, List.append_assoc, hdrop _ (by simp)]
      at hcs
    subst hcs
    exact names_trimTail [] (by simp [htext]) (by simp) htrim
  · rw [hchild, List.reverse_append, List.reverse_cons, List.append_assoc, hdrop _ (by simp)]
      at hcs
    subst hcs
    -- The slash between the directory and the name adds nothing to the names.
    have hslash : (Path.mk (p.text ++ "/")).names = p.names := by
      rw [names, names, String.toList_append]
      exact namesOf_append_slashes p.text.toList (by simp)
    have habsolute : (Path.mk (p.text ++ "/")).isAbsolute = p.isAbsolute := by
      rw [isAbsolute, isAbsolute, String.toList_append,
        List.head?_append_of_ne_nil _ (by simpa using hsome)]
    rw [← hslash, ← habsolute]
    exact names_trimTail [] (by simp) (by simp) htrim

/-- The directories above a name in a directory are that directory and those above it. -/
theorem ancestors_child {name : String} (h : IsName name) (p : Path) :
    ∃ above, (p.child name).ancestors = p.child name :: above ∧
      ∀ a ∈ above, a.text = "" ∨ a.names <+: p.names ∧ a.isAbsolute = p.isAbsolute := by
  rw [ancestors]
  cases (p.child name).text.length with
  | zero => exact ⟨[], rfl, by simp⟩
  | succ height =>
      rw [ancestorsUpTo]
      cases hparent : (p.child name).parent? with
      | none => exact ⟨[], rfl, by simp⟩
      | some q =>
          refine ⟨ancestorsUpTo height q, rfl, fun a ha => ?_⟩
          rcases names_parent_child h hparent with hempty | ⟨hfirst, habsolute⟩
          · exact Or.inl (text_of_mem_ancestorsUpTo hempty ha)
          · rcases names_of_mem_ancestorsUpTo ha with hempty | ⟨hfirst', habsolute'⟩
            · exact Or.inl hempty
            · exact Or.inr ⟨hfirst'.trans hfirst, habsolute'.trans habsolute⟩

theorem namesOf_intercalate {l : Location} (h : ∀ name ∈ l, IsName name) :
    namesOf ("/".intercalate l).toList = l := by
  induction l with
  | nil => decide
  | cons name rest ih =>
      have hname := h name List.mem_cons_self
      cases rest with
      | nil =>
          rw [String.intercalate_singleton]
          exact namesOf_name hname.isPart
      | cons other rest =>
          have hrest := ih fun inner hinner => h inner (List.mem_cons_of_mem name hinner)
          have htext : ("/".intercalate (name :: other :: rest)).toList =
              name.toList ++ '/' :: ("/".intercalate (other :: rest)).toList := by
            simp [String.intercalate_cons_cons]
          rw [htext, namesOf_append_slash, namesOf_name hname.isPart, hrest]
          rfl

/-- The absolute form of a path leads where the path leads. -/
theorem destination_absolute {t : FileTree} (h : ∀ name ∈ t.workingDirectory, IsName name)
    (p : Path) (wd : Location) :
    (t.absolute p).destination wd = p.destination t.workingDirectory := by
  have htext : (FileTree.locationText t.workingDirectory).toList =
      [] ++ '/' :: ("/".intercalate t.workingDirectory).toList := by
    simp [FileTree.locationText]
  have hne : FileTree.locationText t.workingDirectory ≠ "" := by
    intro hempty
    rw [hempty] at htext
    cases htext
  have hnames : (Path.mk (FileTree.locationText t.workingDirectory)).names =
      t.workingDirectory := by
    rw [names, htext, namesOf_append_slash, namesOf_nil, namesOf_intercalate h]
    rfl
  rw [FileTree.absolute]
  generalize FileTree.locationText t.workingDirectory = text at htext hne hnames
  cases hp : p.isAbsolute with
  | true =>
      have hjoin : (Path.mk text).join p = p := by
        rw [join, hp, Bool.true_or, if_pos rfl]
      rw [hjoin, destination, destination, origin, origin, hp]
      rfl
  | false =>
      have habsolute : ((Path.mk text).join p).isAbsolute = true := by
        have hsome : text.isEmpty = false := by simpa [String.isEmpty_iff] using hne
        rw [isAbsolute, join, hp, hsome, Bool.false_or, if_neg Bool.false_ne_true]
        split
        · simp [htext]
        · simp [htext]
      rw [destination, destination, origin, origin, habsolute, hp, names_join hne hp, hnames,
        FileTree.lead_append, if_pos rfl, lead_isPart fun name hname => (h name hname).isPart]
      rfl

end Path

end Automation
