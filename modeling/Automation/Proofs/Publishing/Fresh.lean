import Mathlib.Data.List.Perm.Subperm
import Mathlib.Data.Nat.ModEq
import Automation.Proofs.Publishing.Names

/-
The names of staged paths.

A staged path is named by a number, and numbers a whole cycle apart have one name.  Names that are
taken name files, and those of a cycle are different, so that no more of them are taken in a row than
there are files: among so many numbers and one more a free name is found, unless there are no more names
than files.  What is found does not depend on how many files there are besides.
-/

namespace Automation

/-- Names of one length are the same just when their numbers are in one class. -/
theorem freshName_eq_iff {width m n : Nat} :
    freshName width m = freshName width n ↔
      m % nameDigits.length ^ width = n % nameDigits.length ^ width := by
  have hlength : nameDigits.length = 62 := by decide
  have hdigit : ∀ {i j : Nat}, i < 62 → j < 62 →
      nameDigits.getD i '0' = nameDigits.getD j '0' → i = j := by
    intro i j hi hj heq
    have hnodup : nameDigits.Nodup := by decide
    rw [← hlength] at hi hj
    rw [List.getD_eq_getElem?_getD, List.getD_eq_getElem?_getD, List.getElem?_eq_getElem hi,
      List.getElem?_eq_getElem hj, Option.getD_some, Option.getD_some] at heq
    exact (hnodup.getElem_inj_iff).mp heq
  induction width generalizing m n with
  | zero => simp [freshName, Nat.mod_one]
  | succ width ih =>
      have hstep : freshName (width + 1) m = freshName (width + 1) n ↔
          freshName width (m / nameDigits.length) = freshName width (n / nameDigits.length) ∧
            m % nameDigits.length = n % nameDigits.length := by
        rw [freshName, freshName]
        constructor
        · intro heq
          obtain ⟨hfront, hlast⟩ := List.append_inj' heq rfl
          refine ⟨hfront, ?_⟩
          rw [hlength] at hlast ⊢
          exact hdigit (Nat.mod_lt _ (by decide)) (Nat.mod_lt _ (by decide))
            (List.singleton_inj.mp hlast)
        · rintro ⟨hfront, hlast⟩
          rw [hfront, hlast]
      refine (hstep.trans (and_congr_left' ih)).trans ?_
      rw [Nat.pow_succ', Nat.mod_mul, Nat.mod_mul, hlength]
      omega

namespace ArtifactStore

open FileTree

variable {s : ArtifactStore} {dir : Path} {t t' : FileTree} {n m : Nat}

/-- The name of a staged path by its number. -/
def stagedName (s : ArtifactStore) (n : Nat) : String :=
  String.ofList (freshName stagedWidth n) ++ s.artifactTail

theorem stagedPath_eq (s : ArtifactStore) (dir : Path) (n : Nat) :
    s.stagedPath dir n = dir.child (s.stagedName n) := by
  rw [stagedPath, stagedName, artifactTail, String.append_assoc]

theorem isPart_stagedName (hs : s.WellNamed) (n : Nat) : IsPart (s.stagedName n) :=
  isPart_artifact hs (isAddress_freshName (by decide) n)

/-- How many names there are. -/
def nameCount : Nat := nameDigits.length ^ stagedWidth

/-- The names go round in a cycle. -/
theorem stagedName_eq_iff : s.stagedName m = s.stagedName n ↔ m % nameCount = n % nameCount := by
  rw [nameCount, ← freshName_eq_iff, stagedName, stagedName]
  constructor
  · intro heq
    have hlist := congrArg String.toList heq
    rw [String.toList_append, String.toList_append, String.toList_ofList, String.toList_ofList]
      at hlist
    exact List.append_cancel_right hlist
  · intro heq
    rw [heq]

/-- No more names are taken in a row than there are files. -/
theorem le_length_of_taken (hs : s.WellNamed) (hle : n ≤ m) (hm : m ≤ n + nameCount)
    (htaken : ∀ j, n ≤ j → j < m → t.exists? (s.stagedPath dir j) = true) :
    m ≤ n + t.entries.length := by
  have hnodup : ((List.range (m - n)).map fun j =>
      dir.destination t.workingDirectory ++ [s.stagedName (n + j)]).Nodup := by
    apply List.nodup_range.map_on
    intro i hi j hj heq
    have hname := stagedName_eq_iff.mp (List.singleton_inj.mp (List.append_cancel_left heq))
    rw [List.mem_range] at hi hj
    have hsub := Nat.ModEq.add_left_cancel' n hname
    rw [Nat.ModEq, Nat.mod_eq_of_lt (by omega), Nat.mod_eq_of_lt (by omega)] at hsub
    exact hsub
  have hsubset : ((List.range (m - n)).map fun j =>
      dir.destination t.workingDirectory ++ [s.stagedName (n + j)]) ⊆ t.entries.map Prod.fst := by
    intro l hl
    obtain ⟨j, hj, rfl⟩ := List.mem_map.mp hl
    rw [List.mem_range] at hj
    have hexists := htaken (n + j) (by omega) (by omega)
    obtain ⟨l, node, hlocate, hnode⟩ := exists?_eq_true_iff.mp hexists
    have hl := destination_of_locate hlocate
    rw [stagedPath_eq, Path.destination_child (isPart_stagedName hs _)] at hl
    rw [hl, node?, if_neg (by simp)] at hnode
    exact List.mem_map_of_mem (Table.mem_of_get? hnode)
  have hlength := (hnodup.subperm hsubset).length_le
  rw [List.length_map, List.length_map, List.length_range] at hlength
  omega

/-- What is found is found in any tree with the same names taken, however many files it has. -/
theorem firstFree_congr (hs : s.WellNamed)
    (hsame : ∀ j, t'.exists? (s.stagedPath dir j) = t.exists? (s.stagedPath dir j))
    (hfree : t.exists?
      (firstFree (s.stagedPath dir) t (t.entries.length + 1) n).1 = false) :
    firstFree (s.stagedPath dir) t' (t'.entries.length + 1) n =
      firstFree (s.stagedPath dir) t (t.entries.length + 1) n := by
  obtain ⟨m, heq, hle, -, htaken, -⟩ :=
    exists_firstFree_eq (s.stagedPath dir) t (t.entries.length + 1) n
  rw [heq] at hfree ⊢
  dsimp only at hfree
  have htaken' : ∀ j, n ≤ j → j < m → t'.exists? (s.stagedPath dir j) = true :=
    fun j hj hjm => (hsame j).trans (htaken j hj hjm)
  apply firstFree_eq (s.stagedPath dir) hle _ htaken' ((hsame m).trans hfree)
  have hm : m ≤ n + nameCount := by
    -- A whole cycle back there is the same name, which would be free, too.
    by_contra hlt
    have hback : s.stagedPath dir m = s.stagedPath dir (m - nameCount) := by
      rw [stagedPath_eq, stagedPath_eq, stagedName_eq_iff.mpr (Nat.mod_eq_sub_mod (by omega))]
    have hpos : 0 < nameCount := Nat.pow_pos (by decide)
    have hearlier := htaken (m - nameCount) (by omega) (by omega)
    rw [← hback, hfree] at hearlier
    cases hearlier
  exact (le_length_of_taken hs hle hm htaken').trans (by omega)

/-- With fewer files than names a free one is found. -/
theorem exists?_firstFree (hs : s.WellNamed) (hfew : t.entries.length < nameCount) :
    t.exists? (firstFree (s.stagedPath dir) t (t.entries.length + 1) n).1 = false := by
  obtain ⟨m, heq, hle, htries, htaken, hfree⟩ :=
    exists_firstFree_eq (s.stagedPath dir) t (t.entries.length + 1) n
  have hlength := le_length_of_taken hs hle (by omega) htaken
  rw [heq]
  dsimp only
  exact hfree (by omega)

end ArtifactStore

end Automation
