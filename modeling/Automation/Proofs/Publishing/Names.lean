import Mathlib.Data.List.Nodup
import Automation.ArtifactStore
import Automation.Proofs.Files.Contents
import Automation.Proofs.Files.Extensions
import Automation.Proofs.Files.Histories
import Automation.Proofs.Sharing.Starting

/-
The names of artifacts and of their debug files.

An artifact is called by a label and a tail: stable ones by their address, staged ones by a fresh
name, and both with the same tail.  So the debug files of two artifacts differ in their labels
alone, and which of their names coincide is a matter of the extensions.
-/

namespace Automation

namespace ArtifactStore

/-- What follows the label in the name of an artifact. -/
def artifactTail (s : ArtifactStore) : String := "." ++ s.extension

/-- The last part of the artifact extension, as names are split at their last dot. -/
def suffix (s : ArtifactStore) : String :=
  String.ofList (s.artifactTail.toList.reverse.takeWhile (· ≠ '.')).reverse

/-- What stands between the label of an artifact and the last dot of its name. -/
def trunk (s : ArtifactStore) : String :=
  String.ofList (s.artifactTail.toList.reverse.dropWhile (· ≠ '.')).tail.reverse

/-- What follows the label in the names of debug files, two for each extension. -/
def variantTails (s : ArtifactStore) : List String :=
  s.debugExtensions.flatMap fun extension =>
    [s.artifactTail ++ "." ++ extension, s.trunk ++ "." ++ extension]

/-- The extensions are parts of names: those of debug files are without dots and slashes, that of
artifacts may have dots. -/
structure WellNamed (s : ArtifactStore) : Prop where
  noSlash : '/' ∉ s.extension.toList
  bare : ∀ extension ∈ s.debugExtensions, EngineConfig.isBareExtension extension = true

/-- The debug extensions differ from each other and from the last part of the artifact
extension. -/
structure Distinct (s : ArtifactStore) : Prop extends WellNamed s where
  nodup : s.debugExtensions.Nodup
  ne_suffix : ∀ extension ∈ s.debugExtensions, extension ≠ s.suffix

section Tails

variable {s : ArtifactStore} {tail : String}

theorem dot_notMem_suffix (s : ArtifactStore) : '.' ∉ s.suffix.toList := by
  intro hmem
  rw [suffix, String.toList_ofList, List.mem_reverse] at hmem
  have hall := List.all_eq_true.mp List.all_takeWhile _ hmem
  simp at hall

theorem artifactTail_eq (s : ArtifactStore) : s.artifactTail = s.trunk ++ "." ++ s.suffix := by
  have hsplit := List.takeWhile_append_dropWhile (p := (· ≠ '.'))
    (l := s.artifactTail.toList.reverse)
  have hdot : '.' ∉ s.artifactTail.toList.reverse.takeWhile (· ≠ '.') := by
    intro hmem
    exact dot_notMem_suffix s (by simpa [suffix] using hmem)
  have hhead := List.head?_dropWhile_not (· ≠ '.') s.artifactTail.toList.reverse
  rw [trunk, suffix]
  generalize s.artifactTail.toList.reverse.takeWhile (· ≠ '.') = last at hsplit hdot
  cases hdrop : s.artifactTail.toList.reverse.dropWhile (· ≠ '.') with
  | nil =>
      refine absurd ?_ hdot
      rw [hdrop, List.append_nil] at hsplit
      rw [hsplit]
      simp [artifactTail]
  | cons c before =>
      have hc : c = '.' := by
        rw [hdrop] at hhead
        simpa using hhead
      subst hc
      rw [hdrop] at hsplit
      refine String.toList_inj.mp ?_
      rw [← List.reverse_reverse s.artifactTail.toList, ← hsplit]
      simp

/-- A bare extension has neither dots nor slashes. -/
theorem notMem_of_isBare {extension : String}
    (h : EngineConfig.isBareExtension extension = true) :
    extension ≠ "" ∧ '.' ∉ extension.toList ∧ '/' ∉ extension.toList := by
  simp only [EngineConfig.isBareExtension, Bool.and_eq_true, Bool.not_eq_true',
    List.all_eq_true, bne_iff_ne] at h
  refine ⟨?_, fun hdot => (h.2 _ hdot).1 rfl, fun hslash => (h.2 _ hslash).2 rfl⟩
  rintro rfl
  exact absurd h.1 (by decide)

/-- A configuration that is accepted has bare extensions only. -/
theorem isBare_of_validate {c : EngineConfig} (h : c.validate = .ok ()) :
    EngineConfig.isBareExtension c.artifactExtension = true ∧
      ∀ extension ∈ c.debugExtensions, EngineConfig.isBareExtension extension = true := by
  rw [EngineConfig.validate] at h
  split at h
  · cases h
  split at h
  · cases h
  next hartifact =>
  split at h
  · cases h
  split at h
  · cases h
  next hnone =>
  refine ⟨by simpa using hartifact, fun extension hextension => ?_⟩
  simpa using List.find?_eq_none.mp hnone extension hextension

theorem wellNamed_ofConfig {c : EngineConfig} (h : c.validate = .ok ()) :
    (ofConfig c).WellNamed := by
  obtain ⟨hartifact, hdebug⟩ := isBare_of_validate h
  exact ⟨(notMem_of_isBare hartifact).2.2, hdebug⟩

/-- A bare extension is all there is after the last dot. -/
theorem suffix_eq_of_isBare (h : EngineConfig.isBareExtension s.extension = true) :
    s.suffix = s.extension := by
  have htake := Path.reverse_takeWhile_dotted (notMem_of_isBare h).2.1 ""
  rw [String.empty_append] at htake
  rw [suffix, artifactTail, htake, List.reverse_reverse, String.ofList_toList]

theorem mem_variantTails :
    tail ∈ s.variantTails ↔ ∃ extension ∈ s.debugExtensions,
      tail = s.artifactTail ++ "." ++ extension ∨ tail = s.trunk ++ "." ++ extension := by
  simp [variantTails]

theorem noSlash_trunk (h : s.WellNamed) : '/' ∉ s.trunk.toList := by
  intro hmem
  have htail : '/' ∈ s.artifactTail.toList := by
    rw [artifactTail_eq]
    simp [hmem]
  refine h.noSlash ?_
  simpa [artifactTail] using htail

theorem noSlash_variantTail (h : s.WellNamed) (htail : tail ∈ s.variantTails) :
    '/' ∉ tail.toList := by
  obtain ⟨extension, hextension, heq⟩ := mem_variantTails.mp htail
  have hbare := (notMem_of_isBare (h.bare extension hextension)).2.2
  rcases heq with rfl | rfl
  · simp [artifactTail, h.noSlash, hbare]
  · simp [noSlash_trunk h, hbare]

/-- With distinct extensions no debug file has the name of the artifact. -/
theorem artifactTail_notMem_variantTails (h : s.Distinct) : s.artifactTail ∉ s.variantTails := by
  intro hmem
  obtain ⟨extension, hextension, heq⟩ := mem_variantTails.mp hmem
  have hdot := (notMem_of_isBare (h.bare extension hextension)).2.1
  rcases heq with heq | heq
  · have hlength := congrArg String.length heq
    simp only [String.length_append] at hlength
    have hone : ".".length = 1 := rfl
    omega
  · rw [artifactTail_eq] at heq
    exact h.ne_suffix extension hextension
      (Path.dotted_inj (dot_notMem_suffix s) hdot heq).2.symm

/-- With distinct extensions no two debug files have one name. -/
theorem nodup_variantTails (h : s.Distinct) : s.variantTails.Nodup := by
  have htrunk : s.artifactTail ≠ s.trunk := by
    intro heq
    have hlength := congrArg String.length (artifactTail_eq s)
    rw [← heq, String.length_append, String.length_append] at hlength
    have hone : ".".length = 1 := rfl
    omega
  rw [variantTails, List.nodup_flatMap]
  constructor
  · intro extension hextension
    have hdot := (notMem_of_isBare (h.bare extension hextension)).2.1
    simpa using fun heq => htrunk (Path.dotted_inj hdot hdot heq).1
  · refine h.nodup.imp_of_mem fun {first second} hfirst hsecond hne => ?_
    have hdot := (notMem_of_isBare (h.bare first hfirst)).2.1
    have hdot' := (notMem_of_isBare (h.bare second hsecond)).2.1
    intro tail htail htail'
    simp only [List.mem_cons, List.not_mem_nil, or_false] at htail htail'
    rcases htail with rfl | rfl
    · rcases htail' with heq | heq
      · exact hne (Path.dotted_inj hdot hdot' heq).2
      · exact hne (Path.dotted_inj hdot hdot' heq).2
    · rcases htail' with heq | heq
      · exact hne (Path.dotted_inj hdot hdot' heq).2
      · exact hne (Path.dotted_inj hdot hdot' heq).2

end Tails

section Labels

variable {s : ArtifactStore} {label tail : String}

/-- A label goes before a tail without a slash. -/
theorem isPart_label_append (hlabel : isAddress label = true) (htail : '/' ∉ tail.toList) :
    IsPart (label ++ tail) := by
  have hname := isName_of_isAddress hlabel
  have hdot : '.' ∉ label.toList := notMem_of_isAddress hlabel (by decide)
  obtain ⟨c, rest, hcs⟩ := List.exists_cons_of_ne_nil
    (show label.toList ≠ [] by simpa using hname.ne_empty)
  have hc : c ≠ '.' := fun heq => hdot (by simp [hcs, heq])
  have hhead : (label ++ tail).toList = c :: (rest ++ tail.toList) := by
    rw [String.toList_append, hcs, List.cons_append]
  constructor
  · intro heq
    rw [heq] at hhead
    cases hhead
  · intro heq
    rw [heq] at hhead
    exact hc (List.cons.inj hhead).1.symm
  · intro heq
    rw [heq] at hhead
    exact hc (List.cons.inj hhead).1.symm
  · simp [hname.noSlash, htail]

theorem label_append_inj {tail' : String} (h : label ++ tail = label ++ tail') : tail = tail' := by
  have hlist := congrArg (fun text : String => text.toList) h
  simp only [String.toList_append] at hlist
  exact String.toList_inj.mp (List.append_cancel_left hlist)

section Artifact

variable (h : s.WellNamed) (hlabel : isAddress label = true)

include h hlabel

theorem isPart_artifact : IsPart (label ++ s.artifactTail) := by
  have htail : '/' ∉ s.artifactTail.toList := by simp [artifactTail, h.noSlash]
  exact isPart_label_append hlabel htail

/-- Text at the end of an artifact's path goes to its tail. -/
theorem append_artifact (dir : Path) (more : String) :
    (dir.child (label ++ s.artifactTail)).append more =
      dir.child (label ++ (s.artifactTail ++ more)) := by
  rw [Path.append_child (isPart_artifact h hlabel), String.append_assoc]

/-- The debug files of an artifact lie beside it. -/
theorem debugVariants_artifact (dir : Path) :
    s.debugVariants (dir.child (label ++ s.artifactTail)) =
      s.variantTails.map fun tail => dir.child (label ++ tail) := by
  have hname := isPart_artifact h hlabel
  have hstem := isPart_label_append hlabel (noSlash_trunk h)
  have hsplit : label ++ s.artifactTail = label ++ s.trunk ++ "." ++ s.suffix := by
    rw [artifactTail_eq, String.append_assoc, String.append_assoc, String.append_assoc]
  rw [debugVariants, variantTails, List.map_flatMap]
  refine List.flatMap_congr fun extension hextension => ?_
  have hne := (notMem_of_isBare (h.bare extension hextension)).1
  have hadd := append_artifact h hlabel dir ("." ++ extension)
  have hreplace : (dir.child (label ++ s.artifactTail)).withExtension extension =
      dir.child (label ++ (s.trunk ++ "." ++ extension)) := by
    rw [hsplit] at hname ⊢
    rw [Path.withExtension_child hstem hname (dot_notMem_suffix s) hne]
    simp only [String.append_assoc]
  rw [hadd, hreplace]
  simp [String.append_assoc]

/-- An artifact and its debug files have names in one directory. -/
theorem exists_tail_of_mem {dir p : Path}
    (hp : p ∈ dir.child (label ++ s.artifactTail) ::
      s.debugVariants (dir.child (label ++ s.artifactTail))) :
    ∃ tail, '/' ∉ tail.toList ∧ p = dir.child (label ++ tail) := by
  rw [debugVariants_artifact h hlabel] at hp
  rcases List.mem_cons.mp hp with rfl | hp
  · exact ⟨s.artifactTail, by simp [artifactTail, h.noSlash], rfl⟩
  · obtain ⟨tail, htail, rfl⟩ := List.mem_map.mp hp
    exact ⟨tail, noSlash_variantTail h htail, rfl⟩

end Artifact

end Labels

/-- A path is one that was handed out for a compile of an address. -/
def HandsOut (s : ArtifactStore) (address : String) (staged : Path) : Prop :=
  ∃ n next t t', FileAction.run (s.stagingPath address n).run t = (.ok (staged, next), t')

/-- The directory where the artifacts of an address are staged. -/
def desk (s : ArtifactStore) (address : String) : Path :=
  (s.programsDir.child stagingName).child address

/-- A staged artifact of an address under a label. -/
def stagedAs (s : ArtifactStore) (address label : String) : Path :=
  (s.desk address).child (label ++ s.artifactTail)

/-- A path in the staging directory of an address, under a label that could be an address itself. -/
def IsStaged (s : ArtifactStore) (address : String) (staged : Path) : Prop :=
  isAddress address = true ∧ ∃ label, isAddress label = true ∧ staged = s.stagedAs address label

/-- The stable artifact of an address. -/
def stableAs (s : ArtifactStore) (address : String) : Path :=
  s.programsDir.child (address ++ s.artifactTail)

/-- A staged artifact, and what has its name with more at the end, are names in the staging
directory. -/
theorem IsStaged.exists_name {s : ArtifactStore} {address : String} {staged : Path}
    (h : s.IsStaged address staged) (hs : s.WellNamed) {more : String} (hmore : '/' ∉ more.toList) :
    ∃ name, IsPart name ∧ staged.append more = (s.desk address).child name := by
  obtain ⟨_, label, hlabel, rfl⟩ := h
  have htail : '/' ∉ (s.artifactTail ++ more).toList := by simp [artifactTail, hs.noSlash, hmore]
  exact ⟨_, isPart_label_append hlabel htail, append_artifact hs hlabel _ more⟩

theorem stablePath_eq {s : ArtifactStore} {address : String} (h : isAddress address = true) :
    s.stablePath address = .ok (s.stableAs address) := by
  rw [stablePath, checkAddress, if_pos h, stableAs, artifactTail, ← String.append_assoc]
  rfl

/-- What follows the label in the name of the directory for what is set aside. -/
def asideTail (s : ArtifactStore) : String := s.artifactTail ++ ".displaced"

/-- The names of a commit are names of files. -/
structure Layout (s : ArtifactStore) (address label : String) : Prop extends WellNamed s where
  noNul : '\x00' ∉ s.extension.toList
  address : isAddress address = true
  label : isAddress label = true

namespace Layout

variable {s : ArtifactStore} {address label : String}

theorem aside_eq (h : s.Layout address label) :
    asidePath (s.stagedAs address label) = (s.desk address).child (label ++ s.asideTail) :=
  append_artifact h.toWellNamed h.label _ _

theorem isName_aside (h : s.Layout address label) : IsName (label ++ s.asideTail) := by
  have hslash : '/' ∉ s.asideTail.toList := by simp [asideTail, artifactTail, h.noSlash]
  refine (isPart_label_append h.label hslash).isName ?_
  simp [asideTail, artifactTail, h.noNul, (isName_of_isAddress h.label).noNul]

theorem isName_staged (h : s.Layout address label) : IsName (label ++ s.artifactTail) :=
  (isPart_artifact h.toWellNamed h.label).isName (by
    simp [artifactTail, h.noNul, (isName_of_isAddress h.label).noNul])

theorem isName_stable (h : s.Layout address label) : IsName (address ++ s.artifactTail) :=
  (isPart_artifact h.toWellNamed h.address).isName (by
    simp [artifactTail, h.noNul, (isName_of_isAddress h.address).noNul])

theorem isPart_staged (h : s.Layout address label) {tail : String} (htail : tail ∈ s.variantTails) :
    IsPart (label ++ tail) :=
  isPart_label_append h.label (noSlash_variantTail h.toWellNamed htail)

theorem isPart_stable (h : s.Layout address label) {tail : String} (htail : tail ∈ s.variantTails) :
    IsPart (address ++ tail) :=
  isPart_label_append h.address (noSlash_variantTail h.toWellNamed htail)

theorem debugVariants_staged (h : s.Layout address label) :
    s.debugVariants (s.stagedAs address label) =
      s.variantTails.map fun tail => (s.desk address).child (label ++ tail) :=
  debugVariants_artifact h.toWellNamed h.label _

theorem debugVariants_stable (h : s.Layout address label) :
    s.debugVariants (s.stableAs address) =
      s.variantTails.map fun tail => s.programsDir.child (address ++ tail) :=
  debugVariants_artifact h.toWellNamed h.address _

end Layout

variable {s : ArtifactStore} {address : String} {staged : Path}

open FileAction

/-- Whatever the system refuses on the way, a path that is handed out is one of these. -/
theorem isStaged_of_history {n : Nat} {t t' : FileTree} {events : List FileEvent}
    {handed : Path × Nat} (h : History (s.stagingPath address n).run t events (.ok handed) t') :
    s.IsStaged address handed.1 := by
  rcases FileTask.history_bind_iff.mp h with
    ⟨_, herror, _⟩ | ⟨_, directory, _, _, _, hdirectory, hrest⟩
  · cases herror
  obtain ⟨_, hok, _⟩ := history_pure_iff.mp hdirectory
  rcases FileTask.history_bind_iff.mp hrest with ⟨_, herror, _⟩ | ⟨_, _, t₁, _, _, _, hlook⟩
  · cases herror
  rcases FileTask.history_bind_iff.mp hlook with ⟨_, herror, _⟩ | ⟨_, found, _, _, _, hfound, hend⟩
  · cases herror
  obtain ⟨_, hvalue, hobserved⟩ := FileTask.history_lift_iff.mp hfound
  obtain rfl := Except.ok.inj hvalue
  have hfree := (history_observe_iff.mp hobserved).2.1
  have hhanded := Except.ok.inj (history_pure_iff.mp hend).2.1
  rw [stagingDirectory, checkAddress] at hok
  split at hok
  · next haddress =>
    obtain rfl : directory = s.desk address := Except.ok.inj hok
    obtain ⟨number, hnumber, -⟩ :=
      exists_firstFree_eq (s.stagedPath (s.desk address)) t₁ (t₁.entries.length + 1) n
    have hwidth : stagedWidth ≠ 0 := by decide
    refine ⟨haddress, String.ofList (freshName stagedWidth number),
      isAddress_freshName hwidth number, ?_⟩
    rw [hhanded, hfree, hnumber, stagedPath, stagedAs, artifactTail, String.append_assoc]
  · cases hok

theorem handsOut_of_run {n next : Nat} {t : FileTree}
    (h : (FileAction.run (s.stagingPath address n).run t).1 = .ok (staged, next)) :
    s.HandsOut address staged :=
  ⟨n, next, t, _, Prod.ext h rfl⟩

/-- What is handed out for a compile is a path in the staging directory of the address, under a
label that could be an address itself. -/
theorem HandsOut.exists_label (h : s.HandsOut address staged) :
    isAddress address = true ∧ ∃ label, isAddress label = true ∧
      staged = s.stagedAs address label := by
  obtain ⟨n, next, t, t', hrun⟩ := h
  have hhistory := history_run (s.stagingPath address n).run t
  rw [hrun] at hhistory
  exact isStaged_of_history hhistory

end ArtifactStore

end Automation
