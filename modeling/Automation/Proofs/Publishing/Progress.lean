import Automation.Proofs.Publishing.Commit
import Automation.Proofs.Publishing.Rollback
import Automation.Proofs.Sharing.Exclusion

/-
When commits succeed.

With nothing in the way of its moves a commit goes through exactly when the names that it needs are
not too long.  The debug files must not have the name of an artifact for that, and the way to the
programs directory must not lead through what a commit clears away.
-/

namespace Automation

namespace ArtifactStore

open FileAction

section

variable {s : ArtifactStore} {address label : String} {t t' : FileTree}

namespace Layout

section Progress

variable (h : s.Layout address label)
  (hdesk : t.Reaches (s.desk address) (h.bench t.workingDirectory).deskAt)
  (hready : s.Committable (s.stagedAs address label) (s.stableAs address) t)
  (hfits : s.Fitting (s.stagedAs address label) (s.stableAs address) t)
  {made swapped : List FileEvent} {swaps : List DebugSwap} {t₁ t₂ : FileTree}

include hdesk hready hfits

/-- Once there is a directory for what is set aside, no swap is refused. -/
theorem swappable (hmade : History
      (FileAction.createDirectory (asidePath (s.stagedAs address label))) t made (.ok ()) t₁) :
    Swappable (h.bench t.workingDirectory) 0 s.variantTails t₁ := by
  obtain ⟨hstands, hmaking⟩ := h.prepared hdesk hmade
  have hhome := h.reaches_home hdesk
  refine ⟨fun k tail hk hstable => ?_, fun j _ => ?_, fun tail htail hstaged => ?_,
    fun tail htail => ?_⟩
  · have htail := h.isPart_stable (List.mem_of_getElem? hk)
    have hfile := (hhome.isFile_congr hstands.home htail (hmaking.contentAt? _)).symm.trans hstable
    have hkept := hfits.kept k (s.programsDir.child (address ++ tail))
      (by rw [h.debugVariants_stable, List.getElem?_map, hk]; rfl) hfile
    have hname := isName_of_isAddress (Environment.isAddress_toString k)
    rw [Nat.zero_add]
    exact ⟨hname.noNul, (Path.isShort_child_iff hname).mp hkept⟩
  · have hne : (h.bench t.workingDirectory).keptAt j ≠ (h.bench t.workingDirectory).asideAt :=
      fun heq => by simp [Bench.keptAt] at heq
    rw [hmaking.node?_other hne]
    exact hready.unused _ (h.destination_aside _ ▸ List.prefix_append _ _)
  · have hfile := (hdesk.isFile_congr hstands.desk (h.isPart_staged htail)
      (hmaking.contentAt? _)).symm.trans hstaged
    have hmoved := hfits.moved ((h.bench t.workingDirectory).pair tail)
      (h.debugPairs_eq t.workingDirectory ▸ List.mem_map_of_mem htail) hfile
    have hnul : '\x00' ∉ tail.toList := fun hmem =>
      ((hdesk.isFile_iff (h.isPart_staged htail)).mp hfile).1.1 (by simp [hmem])
    have hname := (h.isPart_stable htail).isName
      (by simp [hnul, (isName_of_isAddress h.address).noNul])
    exact ⟨hname.noNul, (Path.isShort_child_iff hname).mp hmoved⟩
  · have hfree := hready.free (s.programsDir.child (address ++ tail))
      (by rw [h.debugVariants_stable]; simp [List.mem_map_of_mem htail])
    rw [← Bool.not_eq_true] at hfree ⊢
    intro hdirectory
    obtain ⟨htakes, hnode⟩ :=
      (hstands.isDirectory_stable_iff (h.noSlash_of_mem tail htail)).mp hdirectory
    rw [hmaking.node?_other (h.stableAt_ne_asideAt _ _)] at hnode
    exact hfree ((hhome.isDirectory_iff (h.isPart_stable htail)).mpr ⟨htakes, hnode⟩)

/-- Where nothing was, a directory for what is set aside is made, and then all swaps. -/
theorem exists_swaps (hs : s.Distinct) :
    ∃ t₁ swaps t₂,
      (FileAction.createDirectory (asidePath (s.stagedAs address label))).run t = (.ok (), t₁) ∧
      (swapDebugFiles (asidePath (s.stagedAs address label)) 0
        (s.debugPairs (s.stagedAs address label) (s.stableAs address))).run t₁ =
          ((swaps, .ok ()), t₂) := by
  have hshort := hfits.aside
  rw [h.aside_eq] at hshort
  have hfree : t.node? ((h.bench t.workingDirectory).deskAt ++ [label ++ s.asideTail]) = none :=
    hready.unused _ (h.destination_aside _ ▸ h.asideAt_eq _ ▸ List.prefix_rfl)
  have hmade := run_createDirectory_child hdesk h.isName_aside
    ((Path.isShort_child_iff h.isName_aside).mp hshort) hfree
  rw [← h.aside_eq] at hmade
  have hhistory := history_run (FileAction.createDirectory (asidePath (s.stagedAs address label))) t
  rw [hmade] at hhistory
  obtain ⟨swaps, t₂, hswapped⟩ := (h.swappable hdesk hready hfits hhistory).exists_run
    (h.prepared hdesk hhistory).1 (nodup_variantTails hs) h.noSlash_of_mem
  rw [← h.debugPairs_eq t.workingDirectory] at hswapped
  exact ⟨_, swaps, t₂, hmade, hswapped⟩

/-- After the swaps the artifact can be moved. -/
theorem exists_replaced (hs : s.Distinct)
    (hmade : History (FileAction.createDirectory (asidePath (s.stagedAs address label))) t made
      (.ok ()) t₁)
    (hswapped : History (swapDebugFiles (asidePath (s.stagedAs address label)) 0
      (s.debugPairs (s.stagedAs address label) (s.stableAs address))) t₁ swapped
        (swaps, .ok ()) t₂) :
    ∃ t₃, t₂.rename (s.stagedAs address label) (s.stableAs address) = .ok t₃ := by
  obtain ⟨hstands, hmaking⟩ := h.prepared hdesk hmade
  rw [h.debugPairs_eq t.workingDirectory] at hswapped
  have hdone : Swapped (h.bench t.workingDirectory) 0 s.variantTails t₁ t₂ :=
    (swapping_of_history hswapped).swapped hstands (nodup_variantTails hs) h.noSlash_of_mem
  have hfile := (h.isFile_staged hs hdesk hready.isFile hmaking hstands hdone).2
  have htakes : FileTree.Takes s.programsDir (address ++ s.artifactTail) :=
    ⟨h.isName_stable.noNul, (Path.isShort_child_iff h.isName_stable).mp hfits.artifact⟩
  have hfree : t₂.node? ((h.bench t.workingDirectory).stableAt s.artifactTail) ≠
      some .directory := by
    rw [Ne, hdone.agrees.directory_iff, hmaking.node?_other (h.stableAt_ne_asideAt _ _)]
    intro hnode
    have hdirectory := ((h.reaches_home hdesk).isDirectory_iff h.isName_stable.isPart).mpr
      ⟨htakes, hnode⟩
    exact Bool.false_ne_true
      ((hready.free (s.stableAs address) List.mem_cons_self).symm.trans hdirectory)
  obtain ⟨t₃, hrename, _⟩ :=
    (hstands.agreesOff hdone.agrees).exists_over h.noSlash_artifactTail hfile htakes hfree
  exact ⟨t₃, hrename⟩

end Progress

end Layout

/-- When none of its parts is refused, a commit succeeds. -/
theorem run_commit_of_parts {staged stable : Path} {swaps : List DebugSwap} {t₁ t₂ t₃ : FileTree}
    (hstable : s.stablePath address = .ok stable) (hfile : t.isFile staged = true)
    (hmade : (FileAction.createDirectory (asidePath staged)).run t = (.ok (), t₁))
    (hswapped : (swapDebugFiles (asidePath staged) 0 (s.debugPairs staged stable)).run t₁ =
      ((swaps, .ok ()), t₂))
    (hrename : t₂.rename staged stable = .ok t₃) :
    (FileAction.run (s.commit staged address).run t).1 = .ok () := by
  have happly : (FileOp.rename staged stable).apply t₂ = .ok t₃ := hrename
  have hpublish : (s.publish staged stable (asidePath staged)).run t₁ = (.ok (), t₃) := by
    rw [debugPairs] at hswapped
    rw [publish, run_bind, hswapped]
    dsimp only
    rw [run_bind, FileTask.run_during, run_perform_ok happly]
    rfl
  rw [commit, FileTask.run_bind, FileTask.run_ofExcept, hstable]
  dsimp only
  rw [FileTask.run_bind, FileTask.run_observe, hfile]
  dsimp only
  rw [if_pos rfl, FileTask.run_bind, createDirectory, FileTask.run_during, hmade]
  dsimp only
  rw [FileTask.run_bind, FileTask.run_lift, hpublish]
  dsimp only
  rw [FileTask.run_bind, FileTask.run_lift]
  rfl

end

section Lamp

theorem lampStore_distinct : lampStore.Distinct := by
  have hsuffix : lampStore.suffix = "unit" := suffix_eq_of_isBare (by decide)
  refine ⟨lampStore_wellNamed, by decide, ?_⟩
  rw [hsuffix]
  decide

/-- A lamp was compiled with its symbols, and there is an older one with symbols under another
name. -/
def compiledLamp : FileTree :=
  { lampShelves with
    entries := lampShelves.entries ++
      [(["p", "lamp.unit"], .file "old".toUTF8 false),
        (["p", "lamp.mdb"], .file "old symbols".toUTF8 false),
        (["p", ".staging", "lamp", "0000000000000000.unit"], .file "new".toUTF8 false),
        (["p", ".staging", "lamp", "0000000000000000.unit.mdb"],
          .file "new symbols".toUTF8 false)] }

theorem compiledLamp_unused : compiledLamp.Unused (asidePath lampStaged) :=
  FileTree.unused_of_entries (by decide) (by decide)

theorem lampStore_stablePath : lampStore.stablePath "lamp" = .ok ⟨"p/lamp.unit"⟩ := by
  decide

/-- The symbols of the new lamp. -/
theorem compiledLamp_symbols :
    lampStore.stagedImage lampStaged "new".toUTF8 compiledLamp =
      ⟨"new".toUTF8, some "new symbols".toUTF8⟩ := by
  decide

end Lamp

section Limits

open Commons (longAddress isAddress_longAddress toList_longAddress)

/-- A program was compiled with its symbols, the first one of its address. -/
def compiledAt (address : String) : FileTree :=
  { workingDirectory := []
    entries :=
      [(["p"], .directory), (["p", ".staging"], .directory),
        (["p", ".staging", address], .directory),
        (["p", ".staging", address, "0000000000000000.unit"], .file "new".toUTF8 false),
        (["p", ".staging", address, "0000000000000000.unit.mdb"],
          .file "new symbols".toUTF8 false)] }

section Long

variable {address : String} (haddress : isAddress address = true) (hsize : address.length = 250)

include haddress

theorem lampStore_layout : lampStore.Layout address "0000000000000000" :=
  ⟨lampStore_wellNamed, by decide, haddress, by decide⟩

include hsize

theorem size_of_long : address.utf8ByteSize = 250 :=
  (utf8ByteSize_of_isAddress haddress).trans hsize

theorem reaches_desk :
    (compiledAt address).Reaches (lampStore.desk address) ["p", ".staging", address] := by
  refine (reaches_staging rfl ?_ ?_).child (isName_of_isAddress haddress) ?_ ?_
  · simp [compiledAt, FileTree.node?, Table.get?]
  · simp [compiledAt, FileTree.node?, Table.get?]
  · rw [size_of_long haddress hsize, FileTree.nameLimit]
    omega
  · simp [compiledAt, FileTree.node?, Table.get?]

theorem isFile_on_desk {name : String} {content : ByteArray} (hname : IsName name)
    (hshort : name.utf8ByteSize ≤ 255)
    (hnode : (compiledAt address).node? ["p", ".staging", address, name] =
      some (.file content false)) :
    (compiledAt address).isFile ((lampStore.desk address).child name) = true := by
  refine ((reaches_desk haddress hsize).isFile_iff hname.isPart).mpr
    ⟨⟨hname.noNul, hshort, ?_⟩, content, false, hnode⟩
  rw [Path.size_child hname, desk, Path.sizeBelow_child (isName_of_isAddress haddress),
    sizeBelow_staging, size_of_long haddress hsize, FileTree.pathLimit]
  omega

theorem compiledAt_handsOut :
    lampStore.HandsOut address (lampStore.stagedAs address "0000000000000000") :=
  handsOut_beside_lamp (lampStore_layout haddress) rfl (size_of_long haddress hsize).le

theorem compiledAt_committable :
    lampStore.Committable (lampStore.stagedAs address "0000000000000000")
      (lampStore.stableAs address) (compiledAt address) := by
  have h := lampStore_layout haddress
  have hdesk := reaches_desk haddress hsize
  refine ⟨?_, FileTree.unused_of_entries ?_ ?_, fun p hp => ?_⟩
  · have hname : "0000000000000000" ++ lampStore.artifactTail = "0000000000000000.unit" := by
      decide
    have hnode : (compiledAt address).node? ["p", ".staging", address,
        "0000000000000000" ++ lampStore.artifactTail] = some (.file "new".toUTF8 false) := by
      rw [hname]
      simp [compiledAt, FileTree.node?, Table.get?]
    exact isFile_on_desk haddress hsize h.isName_staged (by decide) hnode
  · have hname : "0000000000000000" ++ lampStore.asideTail =
        "0000000000000000.unit.displaced" := by
      decide
    rw [h.aside_eq, Path.destination_child h.isName_aside.isPart, hdesk.destination, hname]
    simp [compiledAt, List.isPrefixOf]
  · rw [h.destination_aside]
    exact Bench.asideAt_ne_nil _
  · rw [← Bool.not_eq_true]
    intro hdirectory
    obtain ⟨l, hlocate, hnode⟩ := FileTree.isDirectory_eq_true_iff.mp hdirectory
    obtain ⟨tail, rfl⟩ := h.locate_stable (h.reaches_home hdesk) hp hlocate
    have hne : ".staging" ≠ address ++ tail := by
      intro heq
      have hlength := congrArg String.length heq
      have hshort : ".staging".length = 8 := by decide
      rw [String.length_append, hsize, hshort] at hlength
      omega
    have hplace : (h.bench (compiledAt address).workingDirectory).stableAt tail =
        ["p", address ++ tail] := by
      change lampStore.programsDir.destination _ ++ [address ++ tail] = _
      rw [destination_lampStore]
      rfl
    rw [hplace] at hnode
    simp [compiledAt, FileTree.node?, Table.get?, hne] at hnode

/-- The path of the stable debug file would be too long. -/
theorem compiledAt_fails :
    (FileAction.run (lampStore.commit (lampStore.stagedAs address "0000000000000000")
      address).run (compiledAt address)).1 ≠ .ok () := by
  have h := lampStore_layout haddress
  have hdesk := reaches_desk haddress hsize
  have htail : ".unit.mdb" ∈ lampStore.variantTails := by decide
  have hname := (h.isPart_stable htail).isName
    (by simp [(isName_of_isAddress haddress).noNul])
  have hfile : (compiledAt address).isFile ((h.bench []).staged ".unit.mdb") = true := by
    have hsymbols : "0000000000000000" ++ ".unit.mdb" = "0000000000000000.unit.mdb" := by
      decide
    have hstaged : IsName ("0000000000000000" ++ ".unit.mdb") :=
      (h.isPart_staged htail).isName (by decide)
    have hnode : (compiledAt address).node? ["p", ".staging", address,
        "0000000000000000" ++ ".unit.mdb"] = some (.file "new symbols".toUTF8 false) := by
      rw [hsymbols]
      simp [compiledAt, FileTree.node?, Table.get?]
    have hshort : ("0000000000000000" ++ ".unit.mdb").utf8ByteSize ≤ 255 := by decide
    exact isFile_on_desk haddress hsize hstaged hshort hnode
  intro hok
  have hfits := h.fitting lampStore_distinct hdesk (Prod.ext hok rfl)
  have hmoved := hfits.moved ((h.bench []).pair ".unit.mdb")
    (h.debugPairs_eq [] ▸ List.mem_map_of_mem htail) hfile
  have hlong := ((Path.isShort_child_iff hname).mp hmoved).1
  have hmore : ".unit.mdb".utf8ByteSize = 9 := by decide
  rw [String.utf8ByteSize_append, size_of_long haddress hsize, FileTree.nameLimit, hmore] at hlong
  omega

end Long

/-- A store whose artifacts have the names of debug files: what follows the last dot is a debug
extension. -/
def dottedStore : ArtifactStore := ⟨⟨"p"⟩, "unit.mdb", ["mdb"]⟩

/-- A lamp was compiled for it. -/
def compiledDotted : FileTree :=
  { lampShelves with
    entries := lampShelves.entries ++
      [(["p", ".staging", "lamp", "0000000000000000.unit.mdb"], .file "new".toUTF8 false)] }

theorem dottedStore_wellNamed : dottedStore.WellNamed := ⟨by decide, by decide⟩

theorem isAddress_lamp : isAddress "lamp" = true := by decide

theorem dottedStore_handsOut :
    dottedStore.HandsOut "lamp" (dottedStore.stagedAs "lamp" "0000000000000000") :=
  handsOut_beside_lamp ⟨dottedStore_wellNamed, by decide, isAddress_lamp, by decide⟩ rfl (by decide)

/-- The staged artifact is moved as a debug file, and then it is not there any more. -/
theorem compiledDotted_fails :
    dottedStore.Committable (dottedStore.stagedAs "lamp" "0000000000000000")
        (dottedStore.stableAs "lamp") compiledDotted ∧
      (FileAction.run (dottedStore.commit (dottedStore.stagedAs "lamp" "0000000000000000")
        "lamp").run compiledDotted).1 ≠ .ok () := by
  refine ⟨⟨by decide, FileTree.unused_of_entries (by decide) (by decide), ?_⟩, ?_⟩
  · decide +kernel
  · decide +kernel

/-- A store whose directory is found from where the process is. -/
def windingStore : ArtifactStore := ⟨⟨"../../.."⟩, "unit", []⟩

/-- A lamp was compiled, and the process is where a commit keeps what it sets aside. -/
def compiledWinding : FileTree :=
  { workingDirectory := ["p", ".staging", "lamp", "0000000000000000.unit.displaced"]
    entries := lampShelves.entries ++
      [(["p", ".staging", "lamp", "0000000000000000.unit.displaced"], .directory),
        (["p", ".staging", "lamp", "0000000000000000.unit"], .file "new".toUTF8 false)] }

theorem windingStore_wellNamed : windingStore.WellNamed := ⟨by decide, by decide⟩

theorem windingStore_handsOut :
    windingStore.HandsOut "lamp" (windingStore.stagedAs "lamp" "0000000000000000") := by
  have hvalue : (FileAction.run (windingStore.stagingPath "lamp" 0).run
      ⟨compiledWinding.workingDirectory, compiledWinding.entries.take 4⟩).1 =
        .ok (windingStore.stagedAs "lamp" "0000000000000000", 1) := by
    decide +kernel
  exact handsOut_of_run hvalue

/-- The artifact is published, and then the way to it is cleared away. -/
theorem compiledWinding_succeeds :
    ∃ t', FileAction.run (windingStore.commit (windingStore.stagedAs "lamp" "0000000000000000")
        "lamp").run compiledWinding = (.ok (), t') ∧
      t'.content? (windingStore.stableAs "lamp") = none := by
  have hok : (FileAction.run (windingStore.commit (windingStore.stagedAs "lamp"
      "0000000000000000") "lamp").run compiledWinding).1 = .ok () := by
    decide +kernel
  have hnone : (FileAction.run (windingStore.commit (windingStore.stagedAs "lamp"
      "0000000000000000") "lamp").run compiledWinding).2.content?
        (windingStore.stableAs "lamp") = none := by
    decide +kernel
  exact ⟨_, Prod.ext hok rfl, hnone⟩

end Limits

end ArtifactStore

end Automation
