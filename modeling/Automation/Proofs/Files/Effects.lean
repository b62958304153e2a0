import Automation.Proofs.Files.Meets
import Automation.Proofs.Files.Resolution

/-
What operations do to the files.

An operation that is not refused changes one location, or all that is below one, and keeps the
rest.  What becomes of a name in a directory that can be reached follows from what is there.
-/

namespace Automation

namespace FileTree

variable {t t' : FileTree} {p : Path} {l other : Location} {name : String}

theorem node?_put_of_ne (hl : l ≠ []) (n : Node) :
    (t.put l n).node? other = if other = l then some n else t.node? other := by
  by_cases hother : other = []
  · subst hother
    rw [node?_root, node?_root, if_neg (Ne.symm hl)]
  · exact node?_put t l other n hother

theorem node?_erase_of_ne (hl : l ≠ []) :
    (t.erase l).node? other = if other = l then none else t.node? other := by
  by_cases hother : other = []
  · subst hother
    rw [node?_root, node?_root, if_neg (Ne.symm hl)]
  · exact node?_erase t l other hother

theorem node?_eraseBelow_of_ne (hl : l ≠ []) :
    (t.eraseBelow l).node? other = if l <+: other then none else t.node? other := by
  by_cases hother : other = []
  · subst hother
    rw [node?_root, node?_root, if_neg (by simpa using hl)]
  · rw [node?_eraseBelow t l other hother]
    by_cases h : l <+: other
    · rw [if_pos h, if_pos (List.isPrefixOf_iff_prefix.mpr h)]
    · rw [if_neg h, if_neg fun hbelow => h (List.isPrefixOf_iff_prefix.mp hbelow)]

theorem makeDirectory_ok (h : t.makeDirectory p = .ok t') :
    t.node? (p.destination t.workingDirectory) = none ∧
      t' = t.put (p.destination t.workingDirectory) .directory := by
  rw [makeDirectory] at h
  split at h
  · cases h
  · next l hlocate =>
    have hl := destination_of_locate hlocate
    rw [Path.destination_withoutSlashes] at hl
    rw [← hl]
    split at h
    · cases h
    · next hnone => exact ⟨hnone, (Except.ok.inj h).symm⟩

theorem removeTree_ok (h : t.removeTree p = .ok t') :
    t' = t.eraseBelow (p.destination t.workingDirectory) := by
  rw [removeTree] at h
  split at h
  · cases h
  · next l hlocate =>
    rw [← destination_of_locate hlocate]
    split at h
    · cases h
    · cases h
    · exact (Except.ok.inj h).symm

/-- What is removed with all that is below it was a directory. -/
theorem directory_of_removeTree (h : t.removeTree p = .ok t') :
    t.node? (p.destination t.workingDirectory) = some .directory := by
  rw [removeTree] at h
  split at h
  · cases h
  next l hlocate =>
  rw [← destination_of_locate hlocate]
  split at h
  · cases h
  · cases h
  · next hdirectory => exact hdirectory

/-- A directory can be removed as far as the files go. -/
theorem exists_removeTree (h : t.isDirectory p = true) : ∃ t', t.removeTree p = .ok t' := by
  rw [isDirectory, stat] at h
  cases hlocate : t.locate p with
  | error e => simp [hlocate] at h
  | ok l =>
      cases hnode : t.node? l with
      | none => simp [hlocate, hnode] at h
      | some node =>
          cases node with
          | file content executable => simp [hlocate, hnode] at h
          | directory => exact ⟨t.eraseBelow l, by rw [removeTree, hlocate]; simp only [hnode]⟩

theorem update_of_locate (content : ByteArray → ByteArray) (hlocate : t.locate p = .ok l)
    (hfile : t.node? l ≠ some .directory) :
    ∃ old executable, t.update p content = .ok (t.put l (.file (content old) executable)) := by
  rw [update, hlocate]
  cases hnode : t.node? l with
  | none => exact ⟨ByteArray.empty, false, by simp [hnode]⟩
  | some node =>
      cases node with
      | directory => exact absurd hnode hfile
      | file old executable => exact ⟨old, executable, by simp [hnode]⟩

theorem unlink_of_locate {content : ByteArray} {executable : Bool} (hlocate : t.locate p = .ok l)
    (hnode : t.node? l = some (.file content executable)) : t.unlink p = .ok (t.erase l) := by
  rw [unlink, hlocate]
  simp [hnode]

section Link

variable {q : Path} {m : Location} {content : ByteArray} {executable : Bool}

theorem link_of_free (hp : t.locate p = .ok l)
    (hnode : t.node? l = some (.file content executable)) (hq : t.locate q = .ok m)
    (hfree : t.node? m = none) : t.link p q = .ok (t.put m (.file content executable)) := by
  rw [link, hp]
  simp [hnode, hq, hfree]

theorem link_of_taken {n : Node} (hp : t.locate p = .ok l)
    (hnode : t.node? l = some (.file content executable)) (hq : t.locate q = .ok m)
    (htaken : t.node? m = some n) : t.link p q = .error .exists := by
  rw [link, hp]
  simp [hnode, hq, htaken]

end Link

theorem readText_of_locate {content : String} {executable : Bool} (hlocate : t.locate p = .ok l)
    (hnode : t.node? l = some (.file content.toUTF8 executable)) :
    t.readText p = .ok content := by
  have hstrict : Text.strict? content.toUTF8 = some content := dif_pos content.isValidUTF8
  rw [readText, readBytes, stat, hlocate]
  simp only [hnode]
  rw [hstrict]

/-- What can be read is a file. -/
theorem file_of_readText {text : String} (h : t.readText p = .ok text) :
    ∃ l content executable, t.locate p = .ok l ∧ t.node? l = some (.file content executable) := by
  rw [readText, readBytes, stat] at h
  cases hlocate : t.locate p with
  | error e => simp [hlocate] at h
  | ok l =>
      cases hnode : t.node? l with
      | none => simp [hlocate, hnode] at h
      | some node =>
          cases node with
          | directory => simp [hlocate, hnode] at h
          | file content executable => exact ⟨l, content, executable, rfl, hnode⟩

theorem node?_ne_none_of_mem {n : Node} (h : (l, n) ∈ t.entries) : t.node? l ≠ none := by
  rw [node?]
  split
  · exact Option.some_ne_none _
  · exact Table.get?_ne_none_of_mem h

/-- The names in a directory name what is there. -/
theorem node?_ne_none_of_list {found : List (String × Node)} (h : t.list p = .ok found)
    {n : Node} (hmem : (name, n) ∈ found) :
    t.node? (p.destination t.workingDirectory ++ [name]) ≠ none := by
  rw [list] at h
  cases hlocate : t.locate p with
  | error e => simp [hlocate] at h
  | ok l =>
      have hchildren : t.children l = found := by
        cases hnode : t.node? l with
        | none => simp [hlocate, hnode] at h
        | some node =>
            cases node with
            | file content executable => simp [hlocate, hnode] at h
            | directory => simpa [hlocate, hnode] using h
      rw [← destination_of_locate hlocate]
      rw [← hchildren, children] at hmem
      obtain ⟨⟨other, node⟩, hentry, hchild⟩ := List.mem_filterMap.mp hmem
      dsimp only at hchild
      split at hchild
      · next hbelow =>
        obtain ⟨last, hlast, heq⟩ := Option.map_eq_some_iff.mp hchild
        obtain ⟨before, hother⟩ := List.getLast?_eq_some_iff.mp hlast
        rw [hother, List.dropLast_concat] at hbelow
        rw [← hbelow.2, ← (Prod.mk.inj heq).1, ← hother]
        exact node?_ne_none_of_mem hentry
      · cases hchild

/-- Whether a name in a directory leads to a directory. -/
theorem isDirectory_child_iff (hname : IsName name) :
    t.isDirectory (p.child name) = true ↔
      t.Reaches p (p.destination t.workingDirectory) ∧ Fits p name ∧
        t.node? (p.destination t.workingDirectory ++ [name]) = some .directory := by
  rw [isDirectory, stat]
  constructor
  · intro h
    split at h
    · next hstat =>
      split at hstat
      · cases hstat
      · next l hlocate =>
        obtain ⟨hreaches, hfits, rfl⟩ := (locate_child_eq_ok_iff hname).mp hlocate
        split at hstat
        · next node hnode =>
          cases hstat
          exact ⟨hreaches, hfits, hnode⟩
        · cases hstat
    · cases h
  · rintro ⟨hreaches, hfits, hnode⟩
    rw [(locate_child_eq_ok_iff hname).mpr ⟨hreaches, hfits, rfl⟩]
    simp [hnode]

/-- What reaches a directory goes on to reach it while directories stay directories. -/
theorem Reaches.of_kept (h : t.Reaches p l) (hwd : t'.workingDirectory = t.workingDirectory)
    (hkept : ∀ m, t.node? m = some .directory → t'.node? m = some .directory) : t'.Reaches p l :=
  h.mono hwd fun _ _ => hkept _

theorem Reaches.put (h : t.Reaches p l) {m : Location} (hm : m ≠ []) {n : Node}
    (hfree : t.node? m = some .directory → n = .directory) : (t.put m n).Reaches p l := by
  refine h.of_kept rfl fun other hother => ?_
  rw [node?_put_of_ne hm]
  split
  · next heq =>
    subst heq
    rw [hfree hother]
  · exact hother

theorem Reaches.erase (h : t.Reaches p l) {m : Location} (hm : m ≠ [])
    (hfile : t.node? m ≠ some .directory) : (t.erase m).Reaches p l := by
  refine h.of_kept rfl fun other hother => ?_
  rw [node?_erase_of_ne hm, if_neg]
  · exact hother
  · rintro rfl
    exact hfile hother

end FileTree

namespace FileAction

variable {α : Type} {t t' : FileTree} {op : FileOp}

theorem run_perform_ok (h : op.apply t = .ok t') : (perform op).run t = (.ok (), t') := by
  change outcome op t = _
  rw [outcome, h]

theorem run_perform_error {e : OsError} (h : op.apply t = .error e) :
    (perform op).run t = (.error e, t) := by
  change outcome op t = _
  rw [outcome, h]

@[simp] theorem run_observe (f : FileTree → α) (t : FileTree) : (observe f).run t = (f t, t) := rfl

end FileAction

namespace Path

theorem ancestors_eq_cons (p : Path) : ∃ above, p.ancestors = p :: above := by
  rw [ancestors]
  cases p.text.length with
  | zero => exact ⟨[], rfl⟩
  | succ height =>
      rw [ancestorsUpTo]
      cases p.parent? with
      | none => exact ⟨[], rfl⟩
      | some parent => exact ⟨ancestorsUpTo height parent, rfl⟩

/-- A path that ends in a name lies in a directory. -/
theorem isSome_parent?_of_fileName? {p : Path} {name : String} (h : p.fileName? = some name) :
    p.parent?.isSome = true := by
  rw [fileName?] at h
  rw [parent?]
  split
  · next hnil =>
    rw [hnil] at h
    simp at h
  · next hroot =>
    rw [hroot] at h
    simp at h
  · rfl

/-- A name in a directory is not where the way up ends. -/
theorem not_ends_child {name : String} (h : IsName name) (p : Path) :
    ¬((p.child name).text = "" ∨ (p.child name).parent?.isNone = true) := by
  have hparent := isSome_parent?_of_fileName? (fileName?_child h.isPart p)
  rintro (hempty | hnone)
  · exact FileTree.child_text_ne_empty h p hempty
  · simp [Option.isNone_iff_eq_none.mp hnone] at hparent

theorem withoutSlashes_child {name : String} (h : IsName name) (p : Path) :
    FileTree.withoutSlashes (p.child name) = p.child name := by
  obtain ⟨c, hc, hlast⟩ := getLast?_child h p
  obtain ⟨cs, htext⟩ := List.getLast?_eq_some_iff.mp hlast
  have hdrop : (p.child name).text.toList.reverse.dropWhile (· = '/') =
      (p.child name).text.toList.reverse := by
    rw [htext, List.reverse_append, List.reverse_singleton, List.singleton_append,
      List.dropWhile_cons, if_neg (by simpa using hc)]
  rw [FileTree.withoutSlashes, hdrop]
  split
  · rfl
  · rw [List.reverse_reverse, String.ofList_toList]

end Path

namespace FileTree

/-- A directory that was made is there. -/
theorem isDirectory_of_makeDirectory {t t' : FileTree} {p : Path} {name : String}
    (hname : IsName name) (h : t.makeDirectory (p.child name) = .ok t') :
    t'.isDirectory (p.child name) = true := by
  obtain ⟨_, hput⟩ := makeDirectory_ok h
  have hlocate : ∃ l, t.locate (p.child name) = .ok l := by
    rw [makeDirectory, Path.withoutSlashes_child hname] at h
    cases hl : t.locate (p.child name) with
    | ok l => exact ⟨l, rfl⟩
    | error e => simp [hl] at h
  obtain ⟨l, hlocate⟩ := hlocate
  obtain ⟨hreaches, hfits, _⟩ := (locate_child_eq_ok_iff hname).mp hlocate
  rw [Path.destination_child hname.isPart] at hput
  have hne : p.destination t.workingDirectory ++ [name] ≠ [] := by simp
  subst hput
  refine (isDirectory_child_iff hname).mpr ⟨hreaches.put hne fun _ => rfl, hfits, ?_⟩
  exact (node?_put_of_ne hne _).trans (if_pos rfl)

end FileTree

namespace FileAction

variable {P : FileTree → Prop}

theorem meets_makeDirectories {paths : List Path}
    (h : ∀ p ∈ paths, p.text ≠ "" → Meets P (perform (.makeDirectory p)) fun _ t => P t) :
    Meets P (makeDirectories paths) fun _ t => P t := by
  induction paths with
  | nil => exact meets_pure fun _ ht => ht
  | cons p above ih =>
      rw [makeDirectories]
      split
      · exact meets_pure fun _ ht => ht
      · next hends =>
        have hmake := h p List.mem_cons_self fun hempty => hends (Or.inl hempty)
        have hlook : ∀ e : OsError, Meets P (do
            if ← observe (·.isDirectory p) then pure (.ok ()) else pure (.error e))
            fun (_ : Except OsError Unit) t => P t := by
          intro e
          refine (meets_observe (Q := fun _ t => P t) fun _ ht => ht).bind fun found => ?_
          cases found with
          | true => exact meets_pure fun _ ht => ht
          | false => exact meets_pure fun _ ht => ht
        have habove := ih fun q hq => h q (List.mem_cons_of_mem p hq)
        refine hmake.bind fun made => ?_
        split
        · exact meets_pure fun _ ht => ht
        · refine habove.bind fun madeAbove => ?_
          split
          · exact meets_pure fun _ ht => ht
          · refine hmake.bind fun made => ?_
            split
            · exact meets_pure fun _ ht => ht
            · exact hlook _
        · exact hlook _

/-- What is kept by making the directories on the way of a path is kept by making them all. -/
theorem meets_createDirectory {p : Path}
    (h : ∀ before, before <+: p.names → ∀ t, P t →
      t.node? (FileTree.lead (p.origin t.workingDirectory) before) = none →
        P (t.put (FileTree.lead (p.origin t.workingDirectory) before) .directory)) :
    Meets P (createDirectory p) fun _ t => P t := by
  refine meets_makeDirectories fun a ha hne => meets_perform_of_keeps fun t t' ht hmake => ?_
  obtain ⟨hnone, rfl⟩ := FileTree.makeDirectory_ok hmake
  rcases Path.names_of_mem_ancestors ha with hempty | ⟨hfirst, habsolute⟩
  · exact absurd hempty hne
  · have hway : a.destination t.workingDirectory =
        FileTree.lead (p.origin t.workingDirectory) a.names := by
      rw [Path.destination, Path.origin, Path.origin, habsolute]
    rw [hway] at hnone ⊢
    exact h a.names hfirst t ht hnone

/-- A directory that was made with all those above it is there. -/
theorem createDirectory_isDirectory {p : Path} {name : String} (hname : IsName name) :
    Meets (fun _ => True) (createDirectory (p.child name)) fun result t =>
      result = .ok () → t.isDirectory (p.child name) = true := by
  obtain ⟨above, habove⟩ := (p.child name).ancestors_eq_cons
  have hmake : Meets (fun _ => True) (perform (.makeDirectory (p.child name)))
      fun made t => made = .ok () → t.isDirectory (p.child name) = true :=
    meets_perform (fun t t' _ happly _ => FileTree.isDirectory_of_makeDirectory hname happly)
      fun _ _ _ _ hok => by cases hok
  have hlook : ∀ (P : FileTree → Prop) (e : OsError), Meets P (do
      if ← observe (·.isDirectory (p.child name)) then pure (.ok ()) else pure (.error e))
      fun (made : Except OsError Unit) t =>
        made = .ok () → t.isDirectory (p.child name) = true := by
    intro P e
    refine (meets_observe (Q := fun found t => t.isDirectory (p.child name) = found)
      fun _ _ => rfl).bind fun found => ?_
    cases found with
    | true => exact meets_pure fun _ ht _ => ht
    | false => exact meets_pure fun _ _ hok => by cases hok
  rw [createDirectory, habove, makeDirectories, if_neg (Path.not_ends_child hname p)]
  refine hmake.bind fun made => ?_
  split
  · exact meets_pure fun _ ht => ht
  · refine Meets.bind (Q := fun _ _ => True) ⟨fun _ _ => trivial⟩ fun madeAbove => ?_
    split
    · exact meets_pure fun _ _ hok => by cases hok
    · refine hmake.bind fun made => ?_
      split
      · exact meets_pure fun _ ht => ht
      · exact hlook _ _
  · exact hlook _ _

end FileAction

end Automation
