import Automation.Proofs.Files.Directories
import Automation.Proofs.Files.Soundness

/-
Making the directories on a way.

To make a directory with all those above it can only add directories, and only where the path leads on its
way and nothing was.  This holds whatever the system refuses, and after each step.
-/

namespace Automation

open FileTree

/-- A path leads to a location, or through it on its way. -/
def Path.Crosses (p : Path) (wd l : Location) : Prop :=
  ∃ before, before <+: p.names ∧ lead (p.origin wd) before = l

/-- Names that do not lead up lead on below. -/
theorem FileTree.isPrefix_lead {names : List String} (hup : ".." ∉ names) (here : Location) :
    here <+: lead here names := by
  induction names generalizing here with
  | nil => exact List.prefix_rfl
  | cons name rest ih =>
      obtain ⟨hname, hrest⟩ := List.ne_and_not_mem_of_not_mem_cons hup
      have hfollow : here <+: follow here name := by
        rw [follow, if_neg (Ne.symm hname)]
        split
        · exact List.prefix_rfl
        · exact List.prefix_append _ _
      exact hfollow.trans (ih hrest _)

/-- Where no name of a path leads up, the path ends below every place on its way. -/
theorem Path.Crosses.isPrefix {p : Path} {wd l : Location} (h : p.Crosses wd l)
    (hup : ".." ∉ p.names) : l <+: p.destination wd := by
  obtain ⟨before, ⟨rest, hrest⟩, rfl⟩ := h
  rw [Path.destination, ← hrest, lead_append]
  refine isPrefix_lead (fun hmem => hup ?_) _
  rw [← hrest]
  exact List.mem_append_right before hmem

/-- Between two trees, directories were made on the way of a path where nothing was, and no more. -/
structure Path.Paved (p : Path) (t t' : FileTree) : Prop where
  workingDirectory : t'.workingDirectory = t.workingDirectory
  node : ∀ l, t'.node? l = t.node? l ∨
    t.node? l = none ∧ t'.node? l = some .directory ∧ p.Crosses t.workingDirectory l

variable {p a : Path} {t t' t'' : FileTree} {l : Location} {events : List FileEvent}
  {result : Except OsError Unit} {name : String}

namespace Path.Paved

theorem refl (p : Path) (t : FileTree) : p.Paved t t := ⟨rfl, fun _ => Or.inl rfl⟩

theorem trans (h : p.Paved t t') (h' : p.Paved t' t'') : p.Paved t t'' := by
  refine ⟨h'.workingDirectory.trans h.workingDirectory, fun l => ?_⟩
  have hsecond := h'.node l
  rw [h.workingDirectory] at hsecond
  rcases h.node l with hkept | ⟨hfree, hmade, hcrosses⟩
  · rwa [hkept] at hsecond
  · rcases hsecond with hkept | ⟨hfree', -, -⟩
    · exact Or.inr ⟨hfree, hkept.trans hmade, hcrosses⟩
    · cases hfree'.symm.trans hmade

theorem directory (h : p.Paved t t') (hl : t.node? l = some .directory) :
    t'.node? l = some .directory := by
  rcases h.node l with hkept | ⟨hfree, -, -⟩
  · exact hkept.trans hl
  · cases hfree.symm.trans hl

theorem of_makeDirectory (ha : a ∈ p.ancestors) (hne : a.text ≠ "")
    (h : t.makeDirectory a = .ok t') : p.Paved t t' := by
  obtain ⟨hfree, rfl⟩ := makeDirectory_ok h
  have hroot : a.destination t.workingDirectory ≠ [] := by
    intro hroot
    rw [hroot, node?_root] at hfree
    cases hfree
  refine ⟨rfl, fun l => ?_⟩
  rw [node?_put_of_ne hroot]
  split
  · next heq =>
    subst heq
    rcases Path.names_of_mem_ancestors ha with hempty | ⟨hfirst, habsolute⟩
    · exact absurd hempty hne
    · refine Or.inr ⟨hfree, rfl, a.names, hfirst, ?_⟩
      rw [Path.destination, Path.origin, Path.origin, habsolute]
  · exact Or.inl rfl

end Path.Paved

/-- Where the directories on its way stay, a path goes on to lead where it led. -/
theorem FileTree.locate_of_kept (hwd : t'.workingDirectory = t.workingDirectory)
    (hkept : ∀ m, p.Crosses t.workingDirectory m → t.node? m = some .directory →
      t'.node? m = some .directory) (hlocate : t.locate p = .ok l) : t'.locate p = .ok l := by
  rw [FileTree.locate] at hlocate ⊢
  rw [hwd]
  split at hlocate
  · cases hlocate
  next hempty =>
  split at hlocate
  · cases hlocate
  next hnul =>
  split at hlocate
  · cases hlocate
  next hsize =>
  obtain ⟨hwalk, rfl⟩ := walk_eq_ok_iff.mp hlocate
  rw [if_neg hempty, if_neg hnul, if_neg hsize, walk_eq_ok_iff]
  refine ⟨hwalk.mono fun before hbefore => hkept _ ?_, rfl⟩
  rcases walkNames_cases p with hnames | hnames
  · exact ⟨before, hnames ▸ hbefore, rfl⟩
  · rw [hnames, List.prefix_concat_iff] at hbefore
    rcases hbefore with rfl | hbefore
    · -- A dot at the end leads nowhere else.
      refine ⟨p.names, List.prefix_rfl, ?_⟩
      rw [lead_append]
      rfl
    · exact ⟨before, hbefore, rfl⟩

namespace FileAction

/-- Whatever becomes of the making of a directory, after each step there are new directories on its way and
nothing else is new. -/
theorem paved_of_history (h : History (createDirectory p) t events result t') :
    p.Paved t t' ∧ ∀ event ∈ events, p.Paved t event.after := by
  have htries : (createDirectory p).Tries fun op =>
      ∃ a ∈ p.ancestors, a.text ≠ "" ∧ op = .makeDirectory a :=
    tries_makeDirectories fun a ha hne => ⟨a, ha, hne, rfl⟩
  refine (h.keeps (P := p.Paved t) htries ?_ (.refl p t)).symm
  rintro op now next ⟨a, ha, hne, rfl⟩ hnow happly
  exact hnow.trans (.of_makeDirectory ha hne happly)

/-- The making of a directory keeps a tree sound, whatever becomes of it. -/
theorem sound_of_history (ht : t.Sound) (h : History (createDirectory p) t events result t') :
    t'.Sound := by
  have htries : (createDirectory p).Tries fun op => ∃ a, op = .makeDirectory a :=
    tries_makeDirectories fun a _ _ => ⟨a, rfl⟩
  refine (h.keeps htries ?_ ht).2
  rintro op now next ⟨a, rfl⟩ hnow happly
  exact hnow.of_makeDirectory happly

/-- When the making of a directory succeeds, the directory is there. -/
theorem isDirectory_of_history (hname : IsName name)
    (h : History (createDirectory (p.child name)) t events (.ok ()) t') :
    t'.isDirectory (p.child name) = true := by
  have hmade : ∀ {t t' : FileTree} {events : List FileEvent},
      History (perform (.makeDirectory (p.child name))) t events (.ok ()) t' →
        t'.isDirectory (p.child name) = true := by
    intro t t' events hperform
    rcases history_perform_iff.mp hperform with ⟨happly, -, -⟩ | ⟨e, hok, -, -⟩
    · exact isDirectory_of_makeDirectory hname happly
    · cases hok
  have hlooked : ∀ {t t' : FileTree} {events : List FileEvent} {e : OsError}, History
      (do if ← observe (·.isDirectory (p.child name)) then pure (.ok ()) else pure (.error e))
        t events (Except.ok ()) t' → t'.isDirectory (p.child name) = true := by
    intro t t' events e hlook
    obtain ⟨-, rfl, hfound⟩ := history_look_iff.mp hlook
    by_contra hnot
    rw [if_neg hnot] at hfound
    cases hfound
  obtain ⟨above, habove⟩ := (p.child name).ancestors_eq_cons
  rw [createDirectory, habove, makeDirectories, if_neg (Path.not_ends_child hname p),
    history_bind_iff] at h
  obtain ⟨first, made, t₁, second, -, hfirst, hsecond⟩ := h
  split at hsecond
  · obtain ⟨-, -, rfl⟩ := history_pure_iff.mp hsecond
    exact hmade hfirst
  · obtain ⟨third, madeAbove, t₂, fourth, -, -, hfourth⟩ := history_bind_iff.mp hsecond
    split at hfourth
    · obtain ⟨-, hok, -⟩ := history_pure_iff.mp hfourth
      cases hok
    · obtain ⟨fifth, again, t₃, sixth, -, hfifth, hsixth⟩ := history_bind_iff.mp hfourth
      split at hsixth
      · obtain ⟨-, -, rfl⟩ := history_pure_iff.mp hsixth
        exact hmade hfifth
      · exact hlooked hsixth
  · exact hlooked hsecond

end FileAction

end Automation
