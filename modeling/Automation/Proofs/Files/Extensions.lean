import Automation.Proofs.Files.Resolution

/-
Names with extensions.

The paths of debug files are made from that of an artifact as texts.  Where the artifact is a name
in a directory, they are names in the same directory.
-/

namespace Automation.Path

variable {p : Path} {name stem old : String}

theorem isAbsolute_mk_append (h : IsPart name) (more : String) :
    (Path.mk (name ++ more)).isAbsolute = false := by
  have hhead : (name ++ more).toList.head? = name.toList.head? := by
    rw [String.toList_append, List.head?_append_of_ne_nil _ (by simpa using h.ne_empty)]
  rw [isAbsolute, hhead]
  exact isAbsolute_mk h

/-- Text at the end of a path goes to its name. -/
theorem append_child (h : IsPart name) (more : String) :
    (p.child name).append more = p.child (name ++ more) := by
  rw [append, child, child, join, join, isAbsolute_mk h, isAbsolute_mk_append h]
  split
  · rfl
  · split
    · simp [String.append_assoc]
    · simp [String.append_assoc]

/-- From the end on, a name with an extension starts with the extension. -/
theorem reverse_takeWhile_dotted (hold : '.' ∉ old.toList) (stem : String) :
    (stem ++ "." ++ old).toList.reverse.takeWhile (· ≠ '.') = old.toList.reverse := by
  have hreverse : (stem ++ "." ++ old).toList.reverse =
      old.toList.reverse ++ '.' :: stem.toList.reverse := by
    simp
  rw [hreverse, List.takeWhile_append_of_pos fun c hc => by
    simpa using fun heq : c = '.' => hold (heq ▸ List.mem_reverse.mp hc)]
  simp

/-- The last dot divides a name in one way. -/
theorem dotted_inj {stem' old' : String} (hold : '.' ∉ old.toList) (hold' : '.' ∉ old'.toList)
    (h : stem ++ "." ++ old = stem' ++ "." ++ old') : stem = stem' ∧ old = old' := by
  have hafter : old = old' := by
    have htake := reverse_takeWhile_dotted hold stem
    rw [h, reverse_takeWhile_dotted hold'] at htake
    exact (String.toList_inj.mp (List.reverse_injective htake)).symm
  subst hafter
  have hlist := congrArg (fun text : String => text.toList) h
  simp only [String.toList_append] at hlist
  exact ⟨String.toList_inj.mp (List.append_cancel_right (List.append_cancel_right hlist)), rfl⟩

/-- A name with an extension is split at its last dot. -/
theorem splitName_append (hstem : stem ≠ "") (hold : '.' ∉ old.toList) :
    splitName (stem ++ "." ++ old) = (stem, some old) := by
  have hdrop : (stem ++ "." ++ old).toList.reverse.drop old.toList.reverse.length =
      '.' :: stem.toList.reverse := by
    have hreverse : (stem ++ "." ++ old).toList.reverse =
        old.toList.reverse ++ '.' :: stem.toList.reverse := by
      simp
    rw [hreverse, List.drop_left]
  rw [splitName]
  simp only [reverse_takeWhile_dotted hold, hdrop]
  split
  · next heq => cases heq
  · next heq => exact absurd (by simpa using (List.cons.inj heq).2) hstem
  · next heq =>
    obtain ⟨_, rfl⟩ := List.cons.inj heq
    simp

/-- The extension of a name in a directory is replaced in the name. -/
theorem withExtension_child (hstem : IsPart stem) (hname : IsPart (stem ++ "." ++ old))
    (hold : '.' ∉ old.toList) {extension : String} (hext : extension ≠ "") :
    (p.child (stem ++ "." ++ old)).withExtension extension =
      p.child (stem ++ "." ++ extension) := by
  have hdotted : IsPart (stem ++ ".") := by
    constructor
    · intro h
      have hlength := congrArg (fun text : String => text.toList) h
      simp at hlength
    · intro h
      exact hstem.ne_empty (by simpa using congrArg (fun text : String => text.toList) h)
    · intro h
      have hlist : stem.toList ++ ['.'] = ['.'] ++ ['.'] := by
        simpa using congrArg (fun text : String => text.toList) h
      exact hstem.ne_here (String.toList_inj.mp (List.append_cancel_right hlist))
    · simpa using hstem.noSlash
  have hcut : (p.child (stem ++ "." ++ old)).text.toList.take
      ((p.child (stem ++ "." ++ old)).text.length - old.length) =
        (p.child (stem ++ ".")).text.toList := by
    rw [← append_child hdotted old, append, String.length_append, Nat.add_sub_cancel,
      String.toList_append, ← String.length_toList, List.take_left]
  have hagain : splitName (stem ++ ".") = (stem, some "") := by
    have hnone : '.' ∉ "".toList := by decide
    rw [← splitName_append hstem.ne_empty hnone, String.append_empty]
  rw [withExtension, extension?, fileName?_child hname, Option.bind_some,
    splitName_append hstem.ne_empty hold]
  simp only [Option.map_some, Option.getD_some, hcut, String.ofList_toList]
  rw [replaceAfterStem, fileName?_child hdotted]
  simp only [hagain, if_neg hext]
  have hkept : (p.child (stem ++ ".")).reversedTail.drop ((stem ++ ".").length - stem.length) =
      (p.child stem).text.toList.reverse := by
    rw [reversedTail_child hdotted, ← append_child hstem, append, String.length_append,
      Nat.add_sub_cancel_left]
    simp only [String.toList_append, List.reverse_append]
    exact List.drop_left
  rw [hkept, List.reverse_reverse, String.ofList_toList, String.append_assoc,
    ← append_child hstem, append]

end Automation.Path
