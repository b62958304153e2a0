import Automation.Proofs.Publishing.Swapping

/-
What swaps have done.

Where no two debug files have one name, a series of swaps that comes to its end has moved every
staged file to its place and left no other one there.  It comes to its end exactly when the names
that it needs are not too long.
-/

namespace Automation

namespace ArtifactStore

open FileAction

/-- The places that a series of swaps may change. -/
def Bench.Touched (b : Bench) (i : Nat) (tails : List String) (l : Location) : Prop :=
  (∃ tail ∈ tails, (FileTree.Takes b.home (b.address ++ tail) ∧ l = b.stableAt tail) ∨
      (FileTree.Takes b.desk (b.label ++ tail) ∧ l = b.stagedAt tail)) ∨
    ∃ k < tails.length, l = b.keptAt (i + k)

/-- What a series of swaps has done when it came to its end. -/
structure Swapped (b : Bench) (i : Nat) (tails : List String) (t t' : FileTree) : Prop where
  agrees : t.AgreesOff (b.Touched i tails) t'
  kept : ∀ k tail, tails[k]? = some tail → t.isFile (b.stable tail) = true →
    FileTree.Takes b.aside (toString (i + k))
  moved : ∀ tail ∈ tails, t.isFile (b.staged tail) = true →
    FileTree.Takes b.home (b.address ++ tail) ∧
      t'.node? (b.stableAt tail) = t.node? (b.stagedAt tail) ∧ t'.node? (b.stagedAt tail) = none
  cleared : ∀ tail ∈ tails, t.isFile (b.staged tail) = false →
    t'.isFile (b.stable tail) = false ∧ t'.isFile (b.staged tail) = false

/-- What a series of swaps needs to come to its end. -/
structure Swappable (b : Bench) (i : Nat) (tails : List String) (t : FileTree) : Prop where
  kept : ∀ k tail, tails[k]? = some tail → t.isFile (b.stable tail) = true →
    FileTree.Takes b.aside (toString (i + k))
  empty : ∀ j, i ≤ j → t.node? (b.keptAt j) = none
  moved : ∀ tail ∈ tails, t.isFile (b.staged tail) = true →
    FileTree.Takes b.home (b.address ++ tail)
  free : ∀ tail ∈ tails, t.isDirectory (b.stable tail) = false

section

variable {b : Bench} {t t' t₁ : FileTree} {i : Nat} {tail : String} {rest tails : List String}
  {previous : Option Path} {swap : DebugSwap}

namespace Bench

theorem not_touched_stableAt (h : tail ∉ tails) (i : Nat) :
    ¬b.Touched i tails (b.stableAt tail) := by
  rintro (⟨other, hother, ⟨_, heq⟩ | ⟨_, heq⟩⟩ | ⟨k, _, heq⟩)
  · exact h (stableAt_inj heq ▸ hother)
  · exact stableAt_ne_stagedAt heq
  · exact stableAt_ne_keptAt heq

theorem not_touched_stagedAt (h : tail ∉ tails) (i : Nat) :
    ¬b.Touched i tails (b.stagedAt tail) := by
  rintro (⟨other, hother, ⟨_, heq⟩ | ⟨_, heq⟩⟩ | ⟨k, _, heq⟩)
  · exact stableAt_ne_stagedAt heq.symm
  · exact h (stagedAt_inj heq ▸ hother)
  · exact stagedAt_ne_keptAt heq

theorem not_touched_keptAt {j : Nat} (h : i + tails.length ≤ j) :
    ¬b.Touched i tails (b.keptAt j) := by
  rintro (⟨other, hother, ⟨_, heq⟩ | ⟨_, heq⟩⟩ | ⟨k, hk, heq⟩)
  · exact stableAt_ne_keptAt heq.symm
  · exact stagedAt_ne_keptAt heq.symm
  · have hsame := keptAt_inj heq
    omega

theorem Touched.of_head {l : Location} (h : b.Touched i [tail] l) : b.Touched i (tail :: rest) l := by
  rcases h with ⟨other, hother, hplace⟩ | ⟨k, hk, rfl⟩
  · obtain rfl := List.mem_singleton.mp hother
    exact Or.inl ⟨other, List.mem_cons_self, hplace⟩
  · refine Or.inr ⟨k, ?_, rfl⟩
    rw [List.length_singleton] at hk
    rw [List.length_cons]
    omega

theorem Touched.of_rest {l : Location} (h : b.Touched (i + 1) rest l) :
    b.Touched i (tail :: rest) l := by
  rcases h with ⟨other, hother, hplace⟩ | ⟨k, hk, rfl⟩
  · exact Or.inl ⟨other, List.mem_cons_of_mem tail hother, hplace⟩
  · refine Or.inr ⟨k + 1, ?_, ?_⟩
    · rw [List.length_cons]
      omega
    · rw [Nat.add_assoc, Nat.add_comm 1 k]

theorem Stands.isFile_stable_congr (h : b.Stands t) (h' : b.Stands t') (htail : '/' ∉ tail.toList)
    (hnode : t'.node? (b.stableAt tail) = t.node? (b.stableAt tail)) :
    t'.isFile (b.stable tail) = t.isFile (b.stable tail) :=
  h.home.isFile_congr h'.home (b.isPart_stable htail) (FileTree.contentAt?_congr hnode)

theorem Stands.isFile_staged_congr (h : b.Stands t) (h' : b.Stands t') (htail : '/' ∉ tail.toList)
    (hnode : t'.node? (b.stagedAt tail) = t.node? (b.stagedAt tail)) :
    t'.isFile (b.staged tail) = t.isFile (b.staged tail) :=
  h.desk.isFile_congr h'.desk (b.isPart_staged htail) (FileTree.contentAt?_congr hnode)

end Bench

/-- To set a debug file aside changes two places at most. -/
theorem SetsAside.agreesOff (h : SetsAside (b.stable tail) (b.kept i) t previous t')
    (hstands : b.Stands t) (htail : '/' ∉ tail.toList) :
    t.AgreesOff (fun l => (FileTree.Takes b.home (b.address ++ tail) ∧ l = b.stableAt tail) ∨
      l = b.keptAt i) t' := by
  rcases h.none_or_moved hstands htail with ⟨_, _, rfl⟩ | ⟨_, hfile, _, hmoved⟩
  · exact .refl _ _
  · have htakes := ((hstands.isFile_stable_iff htail).mp hfile).1
    refine hmoved.agreesOff.mono ?_
    rintro l (rfl | rfl)
    · exact Or.inl ⟨htakes, rfl⟩
    · exact Or.inr rfl

theorem SetsAside.takes (h : SetsAside (b.stable tail) (b.kept i) t previous t')
    (hstands : b.Stands t) (htail : '/' ∉ tail.toList) (hfile : t.isFile (b.stable tail) = true) :
    FileTree.Takes b.aside (toString i) := by
  rcases h.none_or_moved hstands htail with ⟨_, hnone, _⟩ | ⟨_, _, htakes, _⟩
  · rw [hfile] at hnone
    cases hnone
  · exact htakes

/-- Staged files are not touched by it. -/
theorem SetsAside.node?_stagedAt (h : SetsAside (b.stable tail) (b.kept i) t previous t')
    (hstands : b.Stands t) (htail : '/' ∉ tail.toList) (other : String) :
    t'.node? (b.stagedAt other) = t.node? (b.stagedAt other) := by
  refine (h.agreesOff hstands htail).node _ ?_
  rintro (⟨_, heq⟩ | heq)
  · exact Bench.stableAt_ne_stagedAt heq.symm
  · exact Bench.stagedAt_ne_keptAt heq

/-- One swap is a series that came to its end. -/
theorem Swap.swapped (h : Swap b.aside i (b.staged tail) (b.stable tail) t swap t')
    (hstands : b.Stands t) (htail : '/' ∉ tail.toList) : Swapped b i [tail] t t' := by
  have hplaces : ∀ l, (FileTree.Takes b.home (b.address ++ tail) ∧ l = b.stableAt tail) ∨
      l = b.keptAt i → b.Touched i [tail] l := by
    rintro l (hstable | rfl)
    · exact Or.inl ⟨tail, List.mem_singleton_self tail, Or.inl hstable⟩
    · exact Or.inr ⟨0, by simp, rfl⟩
  have hfirst : ∀ k other, [tail][k]? = some other → k = 0 ∧ other = tail := by
    intro k other hother
    obtain ⟨hk, rfl⟩ := List.getElem?_eq_some_iff.mp hother
    rw [List.length_singleton] at hk
    exact ⟨by omega, by simp⟩
  cases h with
  | skipped haside hnone =>
      have hsame := hstands.isFile_staged_congr (haside.stands hstands htail) htail
        (haside.node?_stagedAt hstands htail tail)
      refine ⟨(haside.agreesOff hstands htail).mono hplaces, fun k other hother hfile => ?_,
        List.forall_mem_singleton.mpr fun hfile => ?_,
        List.forall_mem_singleton.mpr fun _ => ⟨haside.isFile_stable hstands htail, hnone⟩⟩
      · obtain ⟨rfl, rfl⟩ := hfirst k other hother
        exact haside.takes hstands htail hfile
      · rw [← hsame, hnone] at hfile
        cases hfile
  | @moved _ t₁ _ haside hfile hrename =>
      have hstands₁ := haside.stands hstands htail
      have hstaged := haside.node?_stagedAt hstands htail tail
      have hsame := hstands.isFile_staged_congr hstands₁ htail hstaged
      obtain ⟨htakes, hmoved⟩ := hstands₁.moved_over htail hfile hrename
      have htakesStaged := ((hstands₁.isFile_staged_iff htail).mp hfile).1
      refine ⟨((haside.agreesOff hstands htail).mono hplaces).trans (hmoved.agreesOff.mono ?_),
        fun k other hother hthere => ?_, List.forall_mem_singleton.mpr fun _ => ⟨htakes, ?_, ?_⟩,
        List.forall_mem_singleton.mpr fun hnone => ?_⟩
      · rintro l (rfl | rfl)
        · exact Or.inl ⟨tail, List.mem_singleton_self tail, Or.inr ⟨htakesStaged, rfl⟩⟩
        · exact Or.inl ⟨tail, List.mem_singleton_self tail, Or.inl ⟨htakes, rfl⟩⟩
      · obtain ⟨rfl, rfl⟩ := hfirst k other hother
        exact haside.takes hstands htail hthere
      · rw [hmoved.node?_target, hstaged]
      · exact hmoved.node?_source Bench.stableAt_ne_stagedAt.symm
      · rw [← hsame, hfile] at hnone
        cases hnone

/-- The swaps of other names come after the first one without meeting it. -/
theorem Swapped.cons (h : Swapped b i [tail] t t₁) (hrest : Swapped b (i + 1) rest t₁ t')
    (hstands : b.Stands t) (hnot : tail ∉ rest) (htail : '/' ∉ tail.toList)
    (htails : ∀ other ∈ rest, '/' ∉ other.toList) : Swapped b i (tail :: rest) t t' := by
  have hstands₁ := hstands.agreesOff h.agrees
  have hstands' := hstands₁.agreesOff hrest.agrees
  have hfirst : ∀ other ∈ rest, other ∉ [tail] := by
    intro other hother hmem
    exact hnot (List.mem_singleton.mp hmem ▸ hother)
  have hstaged : ∀ other ∈ rest, t₁.node? (b.stagedAt other) = t.node? (b.stagedAt other) :=
    fun other hother => h.agrees.node _ (Bench.not_touched_stagedAt (hfirst other hother) i)
  have hstable : ∀ other ∈ rest, t₁.node? (b.stableAt other) = t.node? (b.stableAt other) :=
    fun other hother => h.agrees.node _ (Bench.not_touched_stableAt (hfirst other hother) i)
  have hseen : ∀ other ∈ rest, t₁.isFile (b.staged other) = t.isFile (b.staged other) :=
    fun other hother => hstands.isFile_staged_congr hstands₁ (htails other hother)
      (hstaged other hother)
  have hlastStaged := hrest.agrees.node _ (Bench.not_touched_stagedAt hnot (i + 1))
  have hlastStable := hrest.agrees.node _ (Bench.not_touched_stableAt hnot (i + 1))
  refine ⟨(h.agrees.mono fun l hl => hl.of_head).trans (hrest.agrees.mono fun l hl => hl.of_rest),
    fun k other hother hfile => ?_, List.forall_mem_cons.mpr ⟨fun hfile => ?_, ?_⟩,
    List.forall_mem_cons.mpr ⟨fun hnone => ?_, ?_⟩⟩
  · cases k with
    | zero => exact h.kept 0 other hother hfile
    | succ k =>
        rw [List.getElem?_cons_succ] at hother
        have hmem := List.mem_of_getElem? hother
        have htakes := hrest.kept k other hother
        rw [hstands.isFile_stable_congr hstands₁ (htails other hmem) (hstable other hmem)] at htakes
        rw [Nat.add_comm k 1, ← Nat.add_assoc]
        exact htakes hfile
  · rw [hlastStaged, hlastStable]
    exact h.moved tail (List.mem_singleton_self tail) hfile
  · intro other hother hfile
    rw [← hstaged other hother]
    exact hrest.moved other hother ((hseen other hother).trans hfile)
  · rw [hstands₁.isFile_stable_congr hstands' htail hlastStable,
      hstands₁.isFile_staged_congr hstands' htail hlastStaged]
    exact h.cleared tail (List.mem_singleton_self tail) hnone
  · intro other hother hnone
    exact hrest.cleared other hother ((hseen other hother).trans hnone)

/-- A series of swaps that came to its end has moved everything. -/
theorem Swapping.swapped {swaps : List DebugSwap}
    (h : Swapping b.aside i (tails.map b.pair) t (swaps, .ok ()) t') (hstands : b.Stands t)
    (hnodup : tails.Nodup) (htails : ∀ tail ∈ tails, '/' ∉ tail.toList) :
    Swapped b i tails t t' := by
  induction tails generalizing i t swaps with
  | nil =>
      cases h with
      | done => exact ⟨.refl _ _, by simp, by simp, by simp⟩
  | cons tail rest ih =>
      obtain ⟨htail, hothers⟩ := List.forall_mem_cons.mp htails
      obtain ⟨hnot, hrestNodup⟩ := List.nodup_cons.mp hnodup
      cases h with
      | next hswap hrest =>
          have hfirst := hswap.swapped hstands htail
          exact hfirst.cons (ih hrest (hswap.stands hstands htail) hrestNodup hothers) hstands hnot
            htail hothers

/-- Every stable debug file is the staged one of before. -/
theorem Swapped.content? (h : Swapped b i tails t t') (hstands : b.Stands t)
    (hmem : tail ∈ tails) (htail : '/' ∉ tail.toList) :
    t'.content? (b.stable tail) = t.content? (b.staged tail) := by
  have hstands' := hstands.agreesOff h.agrees
  cases hfile : t.isFile (b.staged tail) with
  | true =>
      obtain ⟨htakes, hnode, _⟩ := h.moved tail hmem hfile
      have htakesStaged := ((hstands.isFile_staged_iff htail).mp hfile).1
      refine Option.ext fun content => ?_
      rw [hstands'.content?_stable_iff htail, hstands.content?_staged_iff htail,
        FileTree.contentAt?_congr hnode]
      simp only [htakes, htakesStaged, true_and]
  | false =>
      have hnone := (h.cleared tail hmem hfile).1
      rw [FileTree.isFile_eq_isSome, Option.isSome_eq_false_iff, Option.isNone_iff_eq_none]
        at hnone hfile
      rw [hnone, hfile]

/-- No debug file is left where it was staged. -/
theorem Swapped.isFile_staged (h : Swapped b i tails t t') (hstands : b.Stands t)
    (hmem : tail ∈ tails) (htail : '/' ∉ tail.toList) : t'.isFile (b.staged tail) = false := by
  cases hfile : t.isFile (b.staged tail) with
  | true =>
      rw [← Bool.not_eq_true]
      intro hleft
      obtain ⟨_, _, _, hnode⟩ := ((hstands.agreesOff h.agrees).isFile_staged_iff htail).mp hleft
      rw [(h.moved tail hmem hfile).2.2] at hnode
      cases hnode
  | false => exact (h.cleared tail hmem hfile).2

end

section Progress

variable {b : Bench} {t t' t₁ : FileTree} {i : Nat} {tail : String} {rest tails : List String}
  {previous : Option Path} {swap : DebugSwap}

theorem run_setAside_of_setsAside {target kept : Path} (h : SetsAside target kept t previous t') :
    FileAction.run (setAside target kept).run t = (.ok previous, t') := by
  rw [setAside, FileTask.run_bind, FileTask.run_observe]
  cases h with
  | absent hnone =>
      simp only [hnone, Bool.false_eq_true, ↓reduceIte]
      exact FileTask.run_pure _ _
  | moved hfile hrename =>
      have happly : (FileOp.rename target kept).apply t = .ok t' := hrename
      simp only [hfile, ↓reduceIte]
      rw [FileTask.run_bind, FileTask.run_during, run_perform_ok happly]
      exact FileTask.run_pure _ _

theorem run_swapDebugFiles_of_swap {aside staged target : Path} {pairs : List (Path × Path)}
    {swaps : List DebugSwap} {result : Except Failure Unit}
    (h : Swap aside i staged target t swap t₁)
    (hrest : (swapDebugFiles aside (i + 1) pairs).run t₁ = ((swaps, result), t')) :
    (swapDebugFiles aside i ((staged, target) :: pairs)).run t = ((swap :: swaps, result), t') := by
  cases h with
  | skipped haside hnone =>
      rw [swapDebugFiles, run_bind, run_setAside_of_setsAside haside]
      dsimp only
      rw [run_bind, run_observe, hnone, if_neg Bool.false_ne_true, run_bind, hrest]
      rfl
  | moved haside hfile hrename =>
      have happly : (FileOp.rename staged target).apply _ = .ok t₁ := hrename
      rw [swapDebugFiles, run_bind, run_setAside_of_setsAside haside]
      dsimp only
      rw [run_bind, run_observe, hfile, if_pos rfl, run_bind, run_perform_ok happly]
      dsimp only
      rw [run_bind, hrest]
      rfl

/-- The first swap can be made. -/
theorem Swappable.exists_swap (h : Swappable b i (tail :: rest) t) (hstands : b.Stands t)
    (htail : '/' ∉ tail.toList) :
    ∃ swap t', Swap b.aside i (b.staged tail) (b.stable tail) t swap t' := by
  obtain ⟨previous, t₁, haside⟩ : ∃ previous t₁,
      SetsAside (b.stable tail) (b.kept i) t previous t₁ := by
    cases hfile : t.isFile (b.stable tail) with
    | false => exact ⟨none, t, .absent hfile⟩
    | true =>
        have htakes := h.kept 0 tail rfl hfile
        have hempty := h.empty i (Nat.le_refl i)
        obtain ⟨t₁, hrename, _⟩ := hstands.exists_aside htail hfile htakes (by simp [hempty])
        exact ⟨_, t₁, .moved hfile hrename⟩
  have hstands₁ := haside.stands hstands htail
  cases hfile : t₁.isFile (b.staged tail) with
  | false => exact ⟨_, t₁, .skipped haside hfile⟩
  | true =>
      have hsame := hstands.isFile_staged_congr hstands₁ htail
        (haside.node?_stagedAt hstands htail tail)
      have htakes := h.moved tail List.mem_cons_self (hsame.symm.trans hfile)
      have hfree : t₁.node? (b.stableAt tail) ≠ some .directory := by
        rw [Ne, (haside.agreesOff hstands htail).directory_iff]
        intro hdirectory
        have hthere := (hstands.isDirectory_stable_iff htail).mpr ⟨htakes, hdirectory⟩
        rw [h.free tail List.mem_cons_self] at hthere
        cases hthere
      obtain ⟨t₂, hrename, _⟩ := hstands₁.exists_over htail hfile htakes hfree
      exact ⟨_, t₂, .moved haside hfile hrename⟩

/-- What the first swap has done is in the way of no other. -/
theorem Swappable.of_cons (h : Swappable b i (tail :: rest) t) (hfirst : Swapped b i [tail] t t₁)
    (hstands : b.Stands t) (hnot : tail ∉ rest) (htails : ∀ other ∈ rest, '/' ∉ other.toList) :
    Swappable b (i + 1) rest t₁ := by
  have hstands₁ := hstands.agreesOff hfirst.agrees
  have hother : ∀ other ∈ rest, other ∉ [tail] := by
    intro other hother hmem
    exact hnot (List.mem_singleton.mp hmem ▸ hother)
  have hstable : ∀ other ∈ rest, t₁.node? (b.stableAt other) = t.node? (b.stableAt other) :=
    fun other hmem => hfirst.agrees.node _ (Bench.not_touched_stableAt (hother other hmem) i)
  refine ⟨fun k other hk hfile => ?_, fun j hj => ?_, fun other hmem hfile => ?_,
    fun other hmem => ?_⟩
  · have hmem := List.mem_of_getElem? hk
    rw [hstands.isFile_stable_congr hstands₁ (htails other hmem) (hstable other hmem)] at hfile
    have htakes := h.kept (k + 1) other (by rw [List.getElem?_cons_succ, hk]) hfile
    rwa [Nat.add_comm k 1, ← Nat.add_assoc] at htakes
  · rw [hfirst.agrees.node _ (Bench.not_touched_keptAt (by simpa using hj))]
    exact h.empty j (by omega)
  · rw [hstands.isFile_staged_congr hstands₁ (htails other hmem)
      (hfirst.agrees.node _ (Bench.not_touched_stagedAt (hother other hmem) i))] at hfile
    exact h.moved other (List.mem_cons_of_mem tail hmem) hfile
  · have hfree := h.free other (List.mem_cons_of_mem tail hmem)
    rw [← Bool.not_eq_true] at hfree ⊢
    intro hdirectory
    obtain ⟨htakes, hnode⟩ := (hstands₁.isDirectory_stable_iff (htails other hmem)).mp hdirectory
    rw [hfirst.agrees.directory_iff] at hnode
    exact hfree ((hstands.isDirectory_stable_iff (htails other hmem)).mpr ⟨htakes, hnode⟩)

/-- A series that has what it needs comes to its end. -/
theorem Swappable.exists_run (h : Swappable b i tails t) (hstands : b.Stands t)
    (hnodup : tails.Nodup) (htails : ∀ tail ∈ tails, '/' ∉ tail.toList) :
    ∃ swaps t', (swapDebugFiles b.aside i (tails.map b.pair)).run t = ((swaps, .ok ()), t') := by
  induction tails generalizing i t with
  | nil => exact ⟨[], t, rfl⟩
  | cons tail rest ih =>
      obtain ⟨htail, hothers⟩ := List.forall_mem_cons.mp htails
      obtain ⟨hnot, hrestNodup⟩ := List.nodup_cons.mp hnodup
      obtain ⟨swap, t₁, hswap⟩ := h.exists_swap hstands htail
      obtain ⟨swaps, t', hrun⟩ := ih
        (h.of_cons (hswap.swapped hstands htail) hstands hnot hothers)
        (hswap.stands hstands htail) hrestNodup hothers
      exact ⟨swap :: swaps, t', run_swapDebugFiles_of_swap hswap hrun⟩

end Progress

end ArtifactStore

end Automation
