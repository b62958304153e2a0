import Automation.Compiler.Command
import Automation.Proofs.Publishing.Rollback

/-
Which files of a build have one name.

Whatever lies beside an artifact has its name with an extension added, or in the place of the artifact
extension.  Extensions have no dots, so such a name is read back into what stands in front of its last
dot and the extension behind it, and two of the names are the same only when the extensions are.  The
files of a build are apart, then, just when no debug extension is given twice and none is the artifact
extension or one that is used for something else.
-/

namespace Automation

/-- The name with a part behind it is read from the directory as it was put there. -/
theorem Path.child_inj {dir : Path} {name name' : String} (hname : IsPart name)
    (hname' : IsPart name') (h : dir.child name = dir.child name') : name = name' := by
  have hnames := congrArg Path.names h
  rw [names_child hname, names_child hname'] at hnames
  exact (List.cons.inj (List.append_cancel_left hnames)).1

namespace ArtifactStore

/-- What stands in front of the last dot in the tails of a build, and what stands behind it.  The
others are the extensions that are added for other purposes than debug symbols. -/
def parts (s : ArtifactStore) (others : List String) : List (String × String) :=
  ("", s.extension) ::
    (others.map fun other => (s.artifactTail, other)) ++
      s.debugExtensions.flatMap fun extension => [(s.artifactTail, extension), ("", extension)]

/-- The files of a build: an artifact, what has its name with one of the other extensions added, and
what may hold its debug symbols. -/
def filesOf (s : ArtifactStore) (artifact : Path) (others : List String) : List Path :=
  artifact :: (others.map fun other => artifact.append ("." ++ other)) ++ s.debugVariants artifact

/-- No debug extension stands for something else as well. -/
structure Apart (s : ArtifactStore) (others : List String) : Prop where
  nodup : s.debugExtensions.Nodup
  artifact : s.extension ∉ s.debugExtensions
  others : ∀ other ∈ others, other ∉ s.debugExtensions

variable {s : ArtifactStore} {others : List String}

theorem artifactTail_ne_empty (s : ArtifactStore) : s.artifactTail ≠ "" := by
  intro hempty
  have hlength := congrArg String.length hempty
  rw [artifactTail, String.length_append] at hlength
  have hone : ".".length = 1 := rfl
  have hzero : "".length = 0 := rfl
  omega

/-- The two debug files of an extension have two names, and those of two extensions are apart. -/
theorem nodup_debugParts_iff {front : String} (hfront : front ≠ "") (extensions : List String) :
    (extensions.flatMap fun extension => [(front, extension), ("", extension)]).Nodup ↔
      extensions.Nodup := by
  rw [List.nodup_flatMap]
  constructor
  · rintro ⟨-, hapart⟩
    apply hapart.imp
    intro first second hdisjoint heq
    subst heq
    exact hdisjoint List.mem_cons_self List.mem_cons_self
  · intro hnodup
    constructor
    · intro extension _
      simp [hfront]
    · apply hnodup.imp
      intro first second hne part hpart hpart'
      have hfirst : part.2 = first := by
        simp only [List.mem_cons, List.not_mem_nil, or_false] at hpart
        rcases hpart with rfl | rfl <;> rfl
      have hsecond : part.2 = second := by
        simp only [List.mem_cons, List.not_mem_nil, or_false] at hpart'
        rcases hpart' with rfl | rfl <;> rfl
      exact hne (hfirst.symm.trans hsecond)

theorem mem_debugParts {front : String} {extensions : List String} {part : String × String} :
    part ∈ (extensions.flatMap fun extension => [(front, extension), ("", extension)]) ↔
      part.2 ∈ extensions ∧ (part.1 = front ∨ part.1 = "") := by
  simp only [List.mem_flatMap, List.mem_cons, List.not_mem_nil, or_false, Prod.ext_iff]
  constructor
  · rintro ⟨extension, hmem, ⟨hfront, rfl⟩ | ⟨hfront, rfl⟩⟩
    · exact ⟨hmem, Or.inl hfront⟩
    · exact ⟨hmem, Or.inr hfront⟩
  · rintro ⟨hmem, hfront | hfront⟩
    · exact ⟨part.2, hmem, Or.inl ⟨hfront, rfl⟩⟩
    · exact ⟨part.2, hmem, Or.inr ⟨hfront, rfl⟩⟩

/-- The parts of a build are apart just when its extensions are. -/
theorem nodup_parts_iff (hothers : others.Nodup) : (s.parts others).Nodup ↔ s.Apart others := by
  have hfront := artifactTail_ne_empty s
  have hmap : (others.map fun other => (s.artifactTail, other)).Nodup := by
    apply hothers.map
    intro other other' heq
    exact (Prod.mk.inj heq).2
  rw [parts, List.cons_append, List.nodup_cons, List.nodup_append, nodup_debugParts_iff hfront]
  constructor
  · rintro ⟨hartifact, -, hdebug, hapart⟩
    refine ⟨hdebug, ?_, ?_⟩
    · intro hmem
      apply hartifact
      exact List.mem_append_right _ (mem_debugParts.mpr ⟨hmem, Or.inr rfl⟩)
    · intro other hother hmem
      exact hapart (s.artifactTail, other) (List.mem_map_of_mem hother) (s.artifactTail, other)
        (mem_debugParts.mpr ⟨hmem, Or.inl rfl⟩) rfl
  · intro h
    refine ⟨?_, hmap, h.nodup, ?_⟩
    · intro hmem
      rcases List.mem_append.mp hmem with hmem | hmem
      · obtain ⟨other, -, heq⟩ := List.mem_map.mp hmem
        exact hfront (Prod.mk.inj heq).1
      · exact h.artifact (mem_debugParts.mp hmem).1
    · intro part hpart part' hpart' heq
      subst heq
      obtain ⟨other, hother, rfl⟩ := List.mem_map.mp hpart
      exact h.others other hother (mem_debugParts.mp hpart').1

/-- A part of a tail with a dot in it. -/
def dotted (part : String × String) : String := part.1 ++ "." ++ part.2

section Bare

variable {label : String} (hbare : EngineConfig.isBareExtension s.extension = true)
  (hdebug : ∀ extension ∈ s.debugExtensions, EngineConfig.isBareExtension extension = true)
  (hothers : ∀ other ∈ others, EngineConfig.isBareExtension other = true)
  (hlabel : isAddress label = true)

include hbare in
theorem trunk_of_isBare : s.trunk = "" := by
  have hsplit := artifactTail_eq s
  have hwhole : s.artifactTail = "" ++ "." ++ s.extension := by rw [artifactTail, String.empty_append]
  rw [hwhole] at hsplit
  exact (Path.dotted_inj (notMem_of_isBare hbare).2.1 (dot_notMem_suffix s) hsplit).1.symm

include hbare hdebug hothers

theorem isBare_of_mem_parts {part : String × String} (h : part ∈ s.parts others) :
    EngineConfig.isBareExtension part.2 = true ∧ (part.1 = s.artifactTail ∨ part.1 = "") := by
  rw [parts, List.cons_append, List.mem_cons, List.mem_append, List.mem_map, mem_debugParts] at h
  rcases h with rfl | ⟨other, hother, rfl⟩ | ⟨hmem, hfront⟩
  · exact ⟨hbare, Or.inr rfl⟩
  · exact ⟨hothers other hother, Or.inl rfl⟩
  · exact ⟨hdebug part.2 hmem, hfront⟩

theorem isPart_dotted (hlabel : isAddress label = true) {part : String × String}
    (h : part ∈ s.parts others) : IsPart (label ++ dotted part) := by
  obtain ⟨hpart, hfront⟩ := isBare_of_mem_parts hbare hdebug hothers h
  have hslash := (notMem_of_isBare hpart).2.2
  apply isPart_label_append hlabel
  rcases hfront with hfront | hfront
  · simp [dotted, hfront, hslash, artifactTail, (notMem_of_isBare hbare).2.2]
  · simp [dotted, hfront, hslash]

/-- Under one label two parts of a build make one name only when they are the same. -/
theorem part_of_label_dotted {part part' : String × String} (h : part ∈ s.parts others)
    (h' : part' ∈ s.parts others) (heq : label ++ dotted part = label ++ dotted part') :
    part = part' := by
  have hdot := (notMem_of_isBare (isBare_of_mem_parts hbare hdebug hothers h).1).2.1
  have hdot' := (notMem_of_isBare (isBare_of_mem_parts hbare hdebug hothers h').1).2.1
  obtain ⟨hfirst, hsecond⟩ := Path.dotted_inj hdot hdot' (label_append_inj heq)
  exact Prod.ext hfirst hsecond

include hlabel

omit hothers in
/-- The files of a build are named by its parts. -/
theorem filesOf_eq (dir : Path) :
    s.filesOf (dir.child (label ++ s.artifactTail)) others =
      (s.parts others).map fun part => dir.child (label ++ dotted part) := by
  have hs : s.WellNamed := ⟨(notMem_of_isBare hbare).2.2, hdebug⟩
  have hartifact : s.artifactTail = dotted ("", s.extension) := by
    rw [dotted, artifactTail, String.empty_append]
  have hadded : ∀ other, (dir.child (label ++ s.artifactTail)).append ("." ++ other) =
      dir.child (label ++ dotted (s.artifactTail, other)) := by
    intro other
    rw [append_artifact hs hlabel, dotted, String.append_assoc]
  have hdebugFiles : s.debugVariants (dir.child (label ++ s.artifactTail)) =
      (s.debugExtensions.flatMap fun extension => [(s.artifactTail, extension), ("", extension)]).map
        fun part => dir.child (label ++ dotted part) := by
    rw [debugVariants_artifact hs hlabel, variantTails, List.map_flatMap, List.map_flatMap,
      trunk_of_isBare hbare]
    rfl
  rw [filesOf, parts, List.map_append, List.map_cons, ← hartifact, List.map_map, hdebugFiles,
    List.map_congr_left fun other _ => hadded other]
  rfl

/-- The files of a build are apart just when its extensions are, and then they lie in different
places. -/
theorem nodup_filesOf_iff (hnodup : others.Nodup) (dir : Path) :
    ((s.filesOf (dir.child (label ++ s.artifactTail)) others).Nodup ↔ s.Apart others) ∧
      ∀ wd, ((s.filesOf (dir.child (label ++ s.artifactTail)) others).map
        (Path.destination wd)).Nodup ↔ s.Apart others := by
  have hpart : ∀ part ∈ s.parts others, IsPart (label ++ dotted part) :=
    fun part h => isPart_dotted hbare hdebug hothers hlabel h
  rw [filesOf_eq hbare hdebug hlabel, ← nodup_parts_iff hnodup]
  constructor
  · constructor
    · exact List.Nodup.of_map _
    · intro h
      apply h.map_on
      intro part hmem part' hmem' heq
      exact part_of_label_dotted hbare hdebug hothers hmem hmem'
        (Path.child_inj (hpart part hmem) (hpart part' hmem') heq)
  · intro wd
    rw [List.map_map]
    constructor
    · exact List.Nodup.of_map _
    · intro h
      apply h.map_on
      intro part hmem part' hmem' heq
      rw [Function.comp_apply, Function.comp_apply, Path.destination_child (hpart part hmem),
        Path.destination_child (hpart part' hmem')] at heq
      exact part_of_label_dotted hbare hdebug hothers hmem hmem'
        (List.cons.inj (List.append_cancel_left heq)).1

end Bare

/-- **The files of one build are apart just when its extensions are.**  Under an accepted configuration a
staged artifact, the source for the compiler, the directory for what is set aside and the debug files are
different paths when no debug extension is given twice and none is the artifact extension, `src` or
`displaced`, and only then; so are the stable artifact and its debug files, for which the first two are
enough.  Different paths lead to different places, wherever the process is. -/
theorem build_files_are_apart_iff {c : EngineConfig} (hvalid : c.validate = .ok ())
    {address : String} {stable : Path} {request : CompileRequest}
    (hstaged : (ofConfig c).HandsOut address request.outputPath)
    (hstable : (ofConfig c).stablePath address = .ok stable) :
    let besides := request.outputPath :: CommandCompiler.sourcePath request ::
      asidePath request.outputPath :: (ofConfig c).debugVariants request.outputPath
    let published := stable :: (ofConfig c).debugVariants stable
    (besides.Nodup ↔ c.debugExtensions.Nodup ∧ c.artifactExtension ∉ c.debugExtensions ∧
      "src" ∉ c.debugExtensions ∧ "displaced" ∉ c.debugExtensions) ∧
    (published.Nodup ↔ c.debugExtensions.Nodup ∧ c.artifactExtension ∉ c.debugExtensions) ∧
    ∀ wd, (besides.Nodup → (besides.map (Path.destination wd)).Nodup) ∧
      (published.Nodup → (published.map (Path.destination wd)).Nodup) := by
  obtain ⟨hbare, hdebug⟩ := isBare_of_validate hvalid
  obtain ⟨haddress, label, hlabel, houtput⟩ := hstaged.exists_label
  obtain rfl : (ofConfig c).stableAs address = stable :=
    Except.ok.inj ((stablePath_eq haddress).symm.trans hstable)
  have hbesides : (((ofConfig c).filesOf _ ["src", "displaced"]).Nodup ↔ _) ∧ _ :=
    nodup_filesOf_iff hbare hdebug (by decide) hlabel (by decide) ((ofConfig c).desk address)
  have hpublished : (((ofConfig c).filesOf _ []).Nodup ↔ _) ∧ _ :=
    nodup_filesOf_iff hbare hdebug (by simp) haddress List.nodup_nil (ofConfig c).programsDir
  rw [← stagedAs, ← houtput] at hbesides
  rw [← stableAs] at hpublished
  refine ⟨?_, ?_, ?_⟩
  · refine hbesides.1.trans ⟨fun h => ⟨h.nodup, h.artifact, ?_, ?_⟩, ?_⟩
    · exact h.others "src" (by simp)
    · exact h.others "displaced" (by simp)
    · rintro ⟨hnodup, hartifact, hsource, haside⟩
      refine ⟨hnodup, hartifact, fun other hother => ?_⟩
      simp only [List.mem_cons, List.not_mem_nil, or_false] at hother
      rcases hother with rfl | rfl
      · exact hsource
      · exact haside
  · refine hpublished.1.trans ⟨fun h => ⟨h.nodup, h.artifact⟩, ?_⟩
    rintro ⟨hnodup, hartifact⟩
    exact ⟨hnodup, hartifact, by simp⟩
  · intro wd
    exact ⟨fun h => (hbesides.2 wd).mpr (hbesides.1.mp h),
      fun h => (hpublished.2 wd).mpr (hpublished.1.mp h)⟩

section Lamp

/-- The configuration of the lamp, with other debug extensions. -/
def lampConfig (debugExtensions : List String) : EngineConfig :=
  { EngineConfig.standard with programsDir := ⟨"p"⟩, debugExtensions := debugExtensions }

/-- The order for the first compile of the lamp. -/
def lampRequest : CompileRequest := ⟨"lamp", "on", none, lampStaged, []⟩

theorem lampConfig_handsOut {debugExtensions : List String}
    (h : (lampConfig debugExtensions).validate = .ok ()) :
    (ofConfig (lampConfig debugExtensions)).HandsOut "lamp" lampRequest.outputPath := by
  have hstaged : lampRequest.outputPath =
      (ofConfig (lampConfig debugExtensions)).stagedAs "lamp" "0000000000000000" := by
    have hsame : lampStaged = lampStore.stagedAs "lamp" "0000000000000000" := by decide
    exact hsame
  have hnul : '\x00' ∉ (ofConfig (lampConfig debugExtensions)).extension.toList := by
    have hlamp : '\x00' ∉ lampStore.extension.toList := by decide
    exact hlamp
  rw [hstaged]
  exact handsOut_beside_lamp ⟨wellNamed_ofConfig h, hnul, by decide, by decide⟩ rfl (by decide)

/-- The files of the lamp are apart in the configuration that nothing is said about. -/
theorem files_of_the_lamp_are_apart :
    let s := ofConfig (lampConfig ["mdb", "pdb"])
    (lampStaged :: CommandCompiler.sourcePath lampRequest :: asidePath lampStaged ::
        s.debugVariants lampStaged).Nodup ∧
      (s.stableAs "lamp" :: s.debugVariants (s.stableAs "lamp")).Nodup := by
  have hvalid : (lampConfig ["mdb", "pdb"]).validate = .ok () := by decide
  have hapart := build_files_are_apart_iff hvalid (lampConfig_handsOut hvalid)
    (stablePath_eq (by decide))
  exact ⟨hapart.1.mpr (by decide), hapart.2.1.mpr (by decide)⟩

/-- A build of the lamp with its symbols, staged. -/
def stagedWithSymbols : FileTree :=
  { lampShelves with
    entries := lampShelves.entries ++
      [(["p", ".staging", "lamp", "0000000000000000.unit"], .file "new".toUTF8 false),
        (["p", ".staging", "lamp", "0000000000000000.unit.mdb"], .file "symbols".toUTF8 false)] }

/-- A configuration in which two files of a build are one may be accepted.  When an extension is given
twice the commit goes well, and the symbols are lost. -/
theorem colliding_extensions_are_accepted :
    (∀ extensions ∈ [["unit"], ["src"], ["displaced"], ["mdb", "mdb"]],
      (lampConfig extensions).validate = .ok () ∧
        (ofConfig (lampConfig extensions)).HandsOut "lamp" lampStaged ∧
        ¬(lampStaged :: CommandCompiler.sourcePath lampRequest :: asidePath lampStaged ::
          (ofConfig (lampConfig extensions)).debugVariants lampStaged).Nodup) ∧
      let s := ofConfig (lampConfig ["mdb", "mdb"])
      let committed := FileAction.run (s.commit lampStaged "lamp").run stagedWithSymbols
      committed.1 = .ok () ∧
        (FileAction.run (s.read "lamp").run committed.2).1 = .ok ⟨"new".toUTF8, none⟩ := by
  constructor
  · have hall : ∀ extensions ∈ [["unit"], ["src"], ["displaced"], ["mdb", "mdb"]],
        (lampConfig extensions).validate = .ok () ∧
          ¬(lampStaged :: CommandCompiler.sourcePath lampRequest :: asidePath lampStaged ::
            (ofConfig (lampConfig extensions)).debugVariants lampStaged).Nodup := by
      decide +kernel
    intro extensions hextensions
    obtain ⟨hvalid, hcollide⟩ := hall extensions hextensions
    exact ⟨hvalid, lampConfig_handsOut hvalid, hcollide⟩
  · exact ⟨by decide +kernel, by decide +kernel⟩

end Lamp

end ArtifactStore

end Automation
