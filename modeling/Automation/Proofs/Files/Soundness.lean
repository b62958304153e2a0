import Automation.Proofs.Files.Effects
import Automation.Proofs.Files.Histories
import Mathlib.Data.List.Induction

/-
Files that are somewhere.

On a sound host whatever is there has a name that can be walked and is in a directory, so there is
nothing below a place that is free.  To make a directory keeps it sound, since the one around it is
looked up first, and so does removing a tree with all that is in it.
-/

namespace Automation

theorem Text.mem_of_mem_splitAt {α : Type} [DecidableEq α] {separator x : α} {xs piece : List α}
    (h : piece ∈ splitAt separator xs) (hx : x ∈ piece) : x ∈ xs := by
  induction xs generalizing piece with
  | nil =>
      obtain rfl := List.mem_singleton.mp h
      cases hx
  | cons c rest ih =>
      rw [splitAt] at h
      split at h
      · rcases List.mem_cons.mp h with rfl | h
        · cases hx
        · exact List.mem_cons_of_mem c (ih h hx)
      · split at h
        · obtain rfl := List.mem_singleton.mp h
          exact List.mem_singleton.mp hx ▸ List.mem_cons_self
        · next first others hsplit =>
          rw [hsplit] at ih
          rcases List.mem_cons.mp h with rfl | h
          · rcases List.mem_cons.mp hx with rfl | hx
            · exact List.mem_cons_self
            · exact List.mem_cons_of_mem c (ih List.mem_cons_self hx)
          · exact List.mem_cons_of_mem c (ih (List.mem_cons_of_mem first h) hx)

namespace Path

variable {p : Path} {name : String}

/-- A name in a path is a piece of its text. -/
theorem plain_of_mem_names (h : name ∈ p.names) :
    name ≠ "" ∧ '/' ∉ name.toList ∧ ∀ c ∈ name.toList, c ∈ p.text.toList := by
  obtain ⟨hmem, hne⟩ := List.mem_filter.mp h
  obtain ⟨piece, hpiece, rfl⟩ := List.mem_map.mp hmem
  refine ⟨by simpa using hne, ?_, ?_⟩
  · rw [String.toList_ofList]
    exact Text.notMem_of_mem_splitAt _ hpiece
  · rw [String.toList_ofList]
    exact fun c hc => Text.mem_of_mem_splitAt hpiece hc

/-- A path that is not the empty one and starts from the working directory has a name. -/
theorem names_ne_nil (habsolute : p.isAbsolute = false) (hne : p.text ≠ "") : p.names ≠ [] := by
  obtain ⟨c, rest, htext⟩ := List.exists_cons_of_ne_nil
    (show p.text.toList ≠ [] by simpa using hne)
  have hc : c ≠ '/' := by
    rintro rfl
    simp [isAbsolute, htext] at habsolute
  rw [names, namesOf, htext, Text.splitAt, if_neg hc]
  split
  · simp
  · simp

end Path

instance (name : String) : Decidable (IsName name) :=
  decidable_of_iff
    (name ≠ "" ∧ name ≠ "." ∧ name ≠ ".." ∧ '/' ∉ name.toList ∧ '\x00' ∉ name.toList)
    ⟨fun ⟨hempty, hhere, hup, hslash, hnul⟩ => ⟨hempty, hhere, hup, hslash, hnul⟩,
      fun ⟨hempty, hhere, hup, hslash, hnul⟩ => ⟨hempty, hhere, hup, hslash, hnul⟩⟩

namespace FileTree

/-- Whatever is there has a name and is in a directory, and the working directory can be named. -/
structure Sound (t : FileTree) : Prop where
  place : ∀ name ∈ t.workingDirectory, IsName name
  housed : ∀ l name, t.node? (l ++ [name]) ≠ none → IsName name ∧ t.node? l = some .directory

namespace Sound

variable {t t' : FileTree} {p : Path} {l m : Location}

/-- It is enough to look at what is listed. -/
theorem of_entries (hplace : ∀ name ∈ t.workingDirectory, IsName name)
    (hentries : ∀ entry ∈ t.entries, ∀ name ∈ entry.1.getLast?,
      IsName name ∧ t.node? entry.1.dropLast = some .directory) : t.Sound := by
  refine ⟨hplace, fun l name hnode => ?_⟩
  obtain ⟨node, hnode⟩ := Option.ne_none_iff_exists'.mp hnode
  rw [node?, if_neg (by simp)] at hnode
  have hhoused := hentries _ (Table.mem_of_get? hnode) name (by simp)
  rwa [List.dropLast_concat] at hhoused

/-- Around what is there, there is something everywhere. -/
theorem around (h : t.Sound) (hunder : l <+: m) (hm : t.node? m ≠ none) : t.node? l ≠ none := by
  obtain ⟨rest, rfl⟩ := hunder
  induction rest using List.reverseRecOn with
  | nil => simpa using hm
  | append_singleton rest name ih =>
      rw [← List.append_assoc] at hm
      refine ih ?_
      rw [(h.housed _ _ hm).2]
      simp

theorem eraseBelow (h : t.Sound) (hl : l ≠ []) : (t.eraseBelow l).Sound := by
  refine ⟨h.place, fun m name hm => ?_⟩
  rw [node?_eraseBelow_of_ne hl] at hm ⊢
  split at hm
  · exact absurd rfl hm
  · next hnot =>
    rw [if_neg fun hbelow => hnot (hbelow.trans (List.prefix_append _ _))]
    exact h.housed m name hm

/-- A path that leads to a free place ends in a name there, in a directory. -/
theorem exists_of_locate (h : t.Sound) (hlocate : t.locate p = .ok l) (hfree : t.node? l = none) :
    ∃ dir name, l = dir ++ [name] ∧ IsName name ∧ t.node? dir = some .directory := by
  rw [locate] at hlocate
  split at hlocate
  · cases hlocate
  next hne =>
  split at hlocate
  · cases hlocate
  next hnul =>
  split at hlocate
  · cases hlocate
  obtain ⟨hwalk, rfl⟩ := walk_eq_ok_iff.mp hlocate
  rcases walkNames_cases p with hnames | hnames
  · rw [hnames] at hwalk hfree ⊢
    rcases List.eq_nil_or_concat p.names with hempty | ⟨before, name, hsplit⟩
    · rw [hempty] at hfree
      have hrelative : p.isAbsolute = false := by
        cases habsolute : p.isAbsolute with
        | false => rfl
        | true =>
            rw [habsolute] at hfree
            cases hfree.symm.trans t.node?_root
      exact absurd hempty (Path.names_ne_nil hrelative hne)
    · rw [List.concat_eq_append] at hsplit
      have hin : name ∈ p.names := by simp [hsplit]
      obtain ⟨hnotEmpty, hslash, hchars⟩ := Path.plain_of_mem_names hin
      rw [hsplit] at hwalk hfree ⊢
      have hdirectory := (walkable_append.mp hwalk).2.1
      rw [lead_append] at hfree ⊢
      generalize lead (if p.isAbsolute then [] else t.workingDirectory) before = dir
        at hdirectory hfree ⊢
      rw [lead_cons, lead_nil, follow] at hfree ⊢
      split_ifs at hfree ⊢ with hhere hup
      · cases hfree.symm.trans hdirectory
      · exact absurd hfree (h.around dir.dropLast_prefix (by simp [hdirectory]))
      · exact ⟨dir, name, rfl, ⟨hnotEmpty, hhere, hup, hslash, fun hmem => hnul (by
          simpa using hchars _ hmem)⟩, hdirectory⟩
  · rw [hnames] at hwalk hfree
    rw [lead_append] at hfree
    have hdirectory := (walkable_append.mp hwalk).2.1
    cases hfree.symm.trans hdirectory

/-- A directory is made with a name and in another directory. -/
theorem of_makeDirectory (h : t.Sound) (hmake : t.makeDirectory p = .ok t') : t'.Sound := by
  rw [makeDirectory] at hmake
  split at hmake
  · cases hmake
  next l hlocate =>
  split at hmake
  · cases hmake
  next hfree =>
  obtain rfl := Except.ok.inj hmake
  obtain ⟨dir, name, rfl, hname, hdir⟩ := h.exists_of_locate hlocate hfree
  refine ⟨h.place, fun m other hm => ?_⟩
  rw [node?_put_of_ne (by simp)] at hm ⊢
  split at hm
  · next heq =>
    obtain ⟨rfl, heq'⟩ := List.append_inj' heq rfl
    obtain rfl : other = name := by simpa using heq'
    rw [if_neg (by simp)]
    exact ⟨hname, hdir⟩
  · obtain ⟨hother, hm'⟩ := h.housed m other hm
    refine ⟨hother, ?_⟩
    split
    · rfl
    · exact hm'

end Sound

end FileTree

end Automation
