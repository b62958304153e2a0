import Automation.Proofs.Files.Contents
import Automation.Proofs.Files.Histories

/-
Making one directory in another.

When the directory around it can be reached, all that the making of a directory can add to the
files is that directory, whatever the system refuses on the way.
-/

namespace Automation

/-- On the way of a path that reaches a directory there are directories. -/
theorem FileTree.Reaches.directory_of_isPrefix {t : FileTree} {p : Path} {l : Location}
    (h : t.Reaches p l) {before : List String} (hbefore : before <+: p.names) :
    t.node? (lead (p.origin t.workingDirectory) before) = some .directory := by
  obtain ⟨rest, hrest⟩ := hbefore
  have hwalk := h.walkable
  rw [← hrest] at hwalk
  cases rest with
  | nil =>
      rw [List.append_nil] at hrest
      have hend : lead (p.origin t.workingDirectory) before = l := by
        rw [hrest]
        exact h.destination
      rw [hend]
      exact h.directory
  | cons name rest => exact (walkable_append.mp hwalk).2.1

namespace FileAction

variable {kind : FileOp → Prop}

theorem tries_makeDirectories {paths : List Path}
    (h : ∀ p ∈ paths, p.text ≠ "" → kind (.makeDirectory p)) :
    (makeDirectories paths).Tries kind := by
  induction paths with
  | nil => exact tries_pure _
  | cons p above ih =>
      rw [makeDirectories]
      split
      · exact tries_pure _
      · next hends =>
        have hmake : (perform (.makeDirectory p)).Tries kind :=
          tries_perform (h p List.mem_cons_self fun hempty => hends (Or.inl hempty))
        have hlook : ∀ e : OsError, Tries kind (do
            if ← observe (·.isDirectory p) then pure (.ok ()) else pure (.error e) :
            FileAction (Except OsError Unit)) := by
          intro e
          refine (tries_observe _).bind fun found => ?_
          split
          · exact tries_pure _
          · exact tries_pure _
        refine hmake.bind fun made => ?_
        split
        · exact tries_pure _
        · refine (ih fun q hq => h q (List.mem_cons_of_mem p hq)).bind fun madeAbove => ?_
          split
          · exact tries_pure _
          · refine hmake.bind fun made => ?_
            split
            · exact tries_pure _
            · exact hlook _
        · exact hlook _

variable {t t' : FileTree} {events : List FileEvent} {result : Except OsError Unit}

/-- Nothing is made where everything is there already. -/
theorem history_makeDirectories_of_present {paths : List Path}
    (hpresent : ∀ p ∈ paths, p.text ≠ "" → t.node? (p.destination t.workingDirectory) ≠ none)
    (h : History (makeDirectories paths) t events result t') :
    t' = t ∧ ∀ event ∈ events, event.after = t := by
  have htries : (makeDirectories paths).Tries fun op =>
      ∃ p ∈ paths, p.text ≠ "" ∧ op = .makeDirectory p :=
    tries_makeDirectories fun p hp hne => ⟨p, hp, hne, rfl⟩
  have hkeeps := h.keeps (P := fun now => now = t) htries ?_ rfl
  · exact ⟨hkeeps.2, hkeeps.1⟩
  · rintro op now next ⟨p, hp, hne, rfl⟩ rfl happly
    obtain ⟨hfree, _⟩ := FileTree.makeDirectory_ok happly
    exact absurd hfree (hpresent p hp hne)

theorem history_look_iff {p : Path} {e : OsError} :
    History (do if ← observe (·.isDirectory p) then pure (.ok ()) else pure (.error e))
        t events result t' ↔
      events = [] ∧ t' = t ∧ result = if t.isDirectory p then .ok () else .error e := by
  rw [history_bind_iff]
  constructor
  · rintro ⟨first, found, t₁, second, rfl, hfirst, hsecond⟩
    obtain ⟨rfl, rfl, rfl⟩ := history_observe_iff.mp hfirst
    rw [← apply_ite pure] at hsecond
    obtain ⟨rfl, rfl, rfl⟩ := history_pure_iff.mp hsecond
    exact ⟨rfl, rfl, rfl⟩
  · rintro ⟨rfl, rfl, rfl⟩
    refine ⟨[], _, t', [], rfl, history_observe_iff.mpr ⟨rfl, rfl, rfl⟩, ?_⟩
    rw [← apply_ite pure]
    exact history_pure_iff.mpr ⟨rfl, rfl, rfl⟩

/-- What can become of the making of a directory: it is made, or nothing is changed. -/
structure Making (t : FileTree) (p : Path) (l : Location) (events : List FileEvent)
    (result : Except OsError Unit) (t' : FileTree) : Prop where
  made : result = .ok () → t'.isDirectory p = true
  refused : ∀ e, result = .error e → t' = t
  files : t' = t ∨ t.node? l = none ∧ t' = t.put l .directory
  seen : ∀ event ∈ events, event.after = t ∨ event.after = t'

namespace Making

variable {p : Path} {l : Location} {more : List FileEvent}

theorem of_unchanged (hseen : ∀ event ∈ events, event.after = t)
    (hmade : result = .ok () → t.isDirectory p = true) : Making t p l events result t :=
  ⟨hmade, fun _ _ => rfl, Or.inl rfl, fun event hevent => Or.inl (hseen event hevent)⟩

theorem prepend (h : Making t p l events result t') (hmore : ∀ event ∈ more, event.after = t) :
    Making t p l (more ++ events) result t' := by
  refine ⟨h.made, h.refused, h.files, fun event hevent => ?_⟩
  rcases List.mem_append.mp hevent with hevent | hevent
  · exact Or.inl (hmore event hevent)
  · exact h.seen event hevent

theorem workingDirectory (h : Making t p l events result t') :
    t'.workingDirectory = t.workingDirectory := by
  rcases h.files with rfl | ⟨_, rfl⟩
  · rfl
  · rfl

theorem node?_other {other : Location} (h : Making t p l events result t') (hother : other ≠ l) :
    t'.node? other = t.node? other := by
  rcases h.files with rfl | ⟨_, rfl⟩
  · rfl
  · exact FileTree.node?_put_other _ (Ne.symm hother)

theorem directory {other : Location} (h : Making t p l events result t')
    (hdirectory : t.node? other = some .directory) : t'.node? other = some .directory := by
  rcases h.files with rfl | ⟨hfree, rfl⟩
  · exact hdirectory
  · rw [FileTree.node?_put_other]
    · exact hdirectory
    · rintro rfl
      rw [hdirectory] at hfree
      cases hfree

/-- A directory is in the place of no file. -/
theorem contentAt? (h : Making t p l events result t') (other : Location) :
    t'.contentAt? other = t.contentAt? other := by
  by_cases hother : other = l
  · subst hother
    rcases h.files with rfl | ⟨hfree, rfl⟩
    · rfl
    · have hroot : other ≠ [] := by
        rintro rfl
        rw [FileTree.node?_root] at hfree
        cases hfree
      rw [FileTree.contentAt?_eq_none_of_node? hfree, FileTree.contentAt?,
        FileTree.node?_put_of_ne hroot, if_pos rfl]
  · exact FileTree.contentAt?_congr (h.node?_other hother)

/-- To try it once is to make it or to be refused. -/
theorem of_perform {dir : Path} {d : Location} {name : String} (hreaches : t.Reaches dir d)
    (hname : IsName name)
    (h : History (perform (.makeDirectory (dir.child name))) t events result t') :
    Making t (dir.child name) (d ++ [name]) events result t' := by
  rcases history_perform_iff.mp h with ⟨happly, rfl, rfl⟩ | ⟨e, rfl, rfl, rfl⟩
  · have hmade := FileTree.makeDirectory_ok happly
    rw [Path.destination_child hname.isPart, hreaches.destination] at hmade
    exact ⟨fun _ => FileTree.isDirectory_of_makeDirectory hname happly,
      fun _ herror => (by cases herror), Or.inr hmade, by simp⟩
  · exact of_unchanged (by simp) fun hok => by cases hok

theorem of_look {e : OsError} (h : History
    (do if ← observe (·.isDirectory p) then pure (.ok ()) else pure (.error e))
      t events result t') : Making t p l events result t' := by
  obtain ⟨rfl, rfl, rfl⟩ := history_look_iff.mp h
  refine of_unchanged (by simp) fun hok => ?_
  by_contra hnot
  rw [if_neg hnot] at hok
  cases hok

end Making

/-- A directory is made in one that is there, or nothing is changed. -/
theorem making_createDirectory {dir : Path} {d : Location} {name : String}
    (hreaches : t.Reaches dir d) (hname : IsName name)
    (h : History (createDirectory (dir.child name)) t events result t') :
    Making t (dir.child name) (d ++ [name]) events result t' := by
  obtain ⟨above, hancestors, hnames⟩ := Path.ancestors_child hname dir
  have hpresent : ∀ a ∈ above, a.text ≠ "" →
      t.node? (a.destination t.workingDirectory) ≠ none := by
    intro a ha hne
    rcases hnames a ha with hempty | ⟨hfirst, habsolute⟩
    · exact absurd hempty hne
    · have hdirectory := hreaches.directory_of_isPrefix hfirst
      rw [Path.origin, ← habsolute, ← Path.origin] at hdirectory
      rw [Path.destination, hdirectory]
      exact Option.some_ne_none _
  have hends := Path.not_ends_child hname dir
  rw [createDirectory, hancestors, makeDirectories, if_neg hends, history_bind_iff] at h
  obtain ⟨first, made, t₁, second, rfl, hfirst, hsecond⟩ := h
  have htried := Making.of_perform hreaches hname hfirst
  split at hsecond
  · obtain ⟨rfl, rfl, rfl⟩ := history_pure_iff.mp hsecond
    rwa [List.append_nil]
  · -- Something above was missing, as far as the system said.
    obtain rfl := htried.refused _ rfl
    refine Making.prepend ?_ fun event hevent => or_self_iff.mp (htried.seen event hevent)
    obtain ⟨third, madeAbove, t₂, fourth, rfl, hthird, hfourth⟩ := history_bind_iff.mp hsecond
    obtain ⟨rfl, hseen⟩ := history_makeDirectories_of_present hpresent hthird
    refine Making.prepend ?_ hseen
    split at hfourth
    · obtain ⟨rfl, rfl, rfl⟩ := history_pure_iff.mp hfourth
      exact Making.of_unchanged (by simp) fun hok => by cases hok
    · obtain ⟨fifth, again, t₃, sixth, rfl, hfifth, hsixth⟩ := history_bind_iff.mp hfourth
      have hagain := Making.of_perform hreaches hname hfifth
      split at hsixth
      · obtain ⟨rfl, rfl, rfl⟩ := history_pure_iff.mp hsixth
        rwa [List.append_nil]
      · obtain rfl := hagain.refused _ rfl
        exact (Making.of_look hsixth).prepend fun event hevent =>
          or_self_iff.mp (hagain.seen event hevent)
  · obtain rfl := htried.refused _ rfl
    exact (Making.of_look hsecond).prepend fun event hevent =>
      or_self_iff.mp (htried.seen event hevent)

/-- A name that is free and fits becomes a directory at once. -/
theorem run_createDirectory_child {dir : Path} {d : Location} {name : String}
    (hreaches : t.Reaches dir d) (hname : IsName name) (hfits : FileTree.Fits dir name)
    (hfree : t.node? (d ++ [name]) = none) :
    (createDirectory (dir.child name)).run t = (.ok (), t.put (d ++ [name]) .directory) := by
  obtain ⟨above, hancestors, _⟩ := Path.ancestors_child hname dir
  have hends := Path.not_ends_child hname dir
  have happly : (FileOp.makeDirectory (dir.child name)).apply t =
      .ok (t.put (d ++ [name]) .directory) := by
    rw [FileOp.apply, FileTree.makeDirectory, Path.withoutSlashes_child hname,
      hreaches.locate_child hname hfits]
    simp only [hfree]
  rw [createDirectory, hancestors, makeDirectories, if_neg hends, run_bind,
    run_perform_ok happly]
  rfl

end FileAction

end Automation
