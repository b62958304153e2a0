import Automation.Environment
import Automation.Proofs.Files.Effects
import Automation.Proofs.Files.Histories
import Automation.Proofs.Files.Soundness
import Automation.Proofs.Sharing.Names

/-
Sweeping the shadow root.

A sweep lists the shadow root and tries to remove what is named after processes that are gone.  Each try
takes a whole directory away or changes nothing, so a sweep takes away whole directories of such names; and
when no removal of a directory is refused, it takes away all of them.
-/

namespace Automation

open FileTree FileAction

namespace Environment

section Gone

variable {cs : List Char} {n pid : Nat} {name : String} {processes : ProcessTable}

/-- A text says a number with digits, possibly after a plus sign. -/
def SaysNumber (cs : List Char) (n : Nat) : Prop :=
  ∃ digits, (cs = digits ∨ cs = '+' :: digits) ∧ digits ≠ [] ∧ (∀ c ∈ digits, c.isDigit = true) ∧
    Nat.ofDigitChars 10 digits 0 = n

/-- A name whose text before the first hyphen is the number of a process, and that process is gone. -/
def IsOfGone (processes : ProcessTable) (name : String) : Prop :=
  ∃ owner rest pid, name.toList = owner ++ '-' :: rest ∧ '-' ∉ owner ∧ SaysNumber owner pid ∧
    pid < pidLimit ∧ pid ≠ processes.self ∧ pid ∉ processes.others

/-- What is left of a text without a plus sign in front has to be digits. -/
theorem natOfText?_eq_ite (cs : List Char) : ∃ digits,
    (cs = digits ∧ (∀ rest, cs ≠ '+' :: rest) ∨ cs = '+' :: digits) ∧
      natOfText? cs = if digits = [] ∨ !digits.all Char.isDigit then none
        else some (Nat.ofDigitChars 10 digits 0) := by
  have hread : ∀ digits : List Char,
      digits.foldl (fun n c => n * 10 + (c.toNat - '0'.toNat)) 0 = Nat.ofDigitChars 10 digits 0 := by
    intro digits
    rw [Nat.ofDigitChars_eq_foldl]
    simp only [Nat.mul_comm 10]
  cases cs with
  | nil => exact ⟨[], Or.inl ⟨rfl, by simp⟩, rfl⟩
  | cons c rest =>
      by_cases hplus : c = '+'
      · subst hplus
        exact ⟨rest, Or.inr rfl, by rw [← hread]; rfl⟩
      · refine ⟨c :: rest, Or.inl ⟨rfl, by simp [hplus]⟩, ?_⟩
        rw [← hread]
        simp [natOfText?, hplus]

theorem natOfText?_eq_some_iff : natOfText? cs = some n ↔ SaysNumber cs n := by
  obtain ⟨digits, hcs, hread⟩ := natOfText?_eq_ite cs
  rw [hread]
  constructor
  · intro h
    split at h
    · cases h
    · next hdigits =>
      rw [not_or, Bool.not_eq_true', Bool.not_eq_false, List.all_eq_true] at hdigits
      exact ⟨digits, hcs.imp_left And.left, hdigits.1, hdigits.2, Option.some.inj h⟩
  · rintro ⟨others, hothers, hne, hdigits, rfl⟩
    have hsame : digits = others := by
      rcases hcs with ⟨rfl, hplus⟩ | rfl
      · rcases hothers with heq | heq
        · exact heq
        · exact absurd heq (hplus others)
      · rcases hothers with rfl | heq
        · exact absurd (hdigits '+' List.mem_cons_self) (by decide)
        · exact (List.cons.inj heq).2
    subst hsame
    rw [if_neg]
    rw [not_or, Bool.not_eq_true', Bool.not_eq_false, List.all_eq_true]
    exact ⟨hne, hdigits⟩

theorem takeWhile_ne_hyphen {owner : List Char} (howner : '-' ∉ owner) (rest : List Char) :
    (owner ++ '-' :: rest).takeWhile (· ≠ '-') = owner := by
  rw [List.takeWhile_append_of_pos fun c hc => by
    simpa using fun heq : c = '-' => howner (heq ▸ hc)]
  simp

theorem ownerPid?_eq_some_iff : ownerPid? name = some pid ↔
    ∃ owner rest, name.toList = owner ++ '-' :: rest ∧ '-' ∉ owner ∧ SaysNumber owner pid ∧
      pid < pidLimit := by
  rw [ownerPid?]
  constructor
  · intro h
    split at h
    · next hcontains =>
      obtain ⟨owner, rest, hname, howner⟩ :=
        List.eq_append_cons_of_mem (List.contains_iff_mem.mp hcontains)
      rw [hname, takeWhile_ne_hyphen howner, Option.filter_eq_some_iff, natOfText?_eq_some_iff] at h
      exact ⟨owner, rest, hname, howner, h.1, of_decide_eq_true h.2⟩
    · cases h
  · rintro ⟨owner, rest, hname, howner, hsays, hlimit⟩
    have hcontains : name.toList.contains '-' = true := by simp [hname]
    rw [if_pos hcontains, hname, takeWhile_ne_hyphen howner, natOfText?_eq_some_iff.mpr hsays]
    simp [hlimit]

/-- The names that a sweep looks for are those of processes that are gone. -/
theorem isDead_eq_true_iff : isDead processes name = true ↔ IsOfGone processes name := by
  have halive : ∀ pid, (!processes.isAlive pid) = true ↔
      pid ≠ processes.self ∧ pid ∉ processes.others := by
    intro pid
    simp [ProcessTable.isAlive]
  have hgone : IsOfGone processes name ↔
      ∃ pid, ownerPid? name = some pid ∧ (!processes.isAlive pid) = true := by
    simp only [ownerPid?_eq_some_iff, halive]
    constructor
    · rintro ⟨owner, rest, pid, hname, howner, hsays, hlimit, hself, hothers⟩
      exact ⟨pid, ⟨owner, rest, hname, howner, hsays, hlimit⟩, hself, hothers⟩
    · rintro ⟨pid, ⟨owner, rest, hname, howner, hsays, hlimit⟩, hself, hothers⟩
      exact ⟨owner, rest, pid, hname, howner, hsays, hlimit, hself, hothers⟩
  rw [hgone, isDead]
  cases ownerPid? name with
  | none => simp
  | some pid => simp

/-- The directory of the process that is asking is not that of one that is gone. -/
theorem IsOwnerOf.not_isOfGone (h : IsOwnerOf processes.self name) : ¬IsOfGone processes name := by
  rintro ⟨owner, rest, pid, hname, howner, hsays, -, hself, -⟩
  obtain ⟨n, hdigits⟩ := h.toList
  have hhyphen : '-' ∉ Nat.toDigits 10 processes.self := fun hmem =>
    absurd (Nat.isDigit_of_mem_toDigits (by decide) (by decide) hmem) (by decide)
  have hsame : owner = Nat.toDigits 10 processes.self := by
    rw [← takeWhile_ne_hyphen howner rest, ← hname, hdigits, takeWhile_ne_hyphen hhyphen]
  rw [hsame, ← natOfText?_eq_some_iff, natOfText?_toDigits] at hsays
  exact hself (Option.some.inj hsays).symm

end Gone

end Environment

namespace FileTree

variable {t t' : FileTree} {p : Path} {l : Location} {name : String} {n : Node}

/-- What is in a directory is among its names. -/
theorem mem_children_of_node? (h : t.node? (l ++ [name]) = some n) : (name, n) ∈ t.children l := by
  rw [node?, if_neg (by simp)] at h
  exact List.mem_filterMap.mpr ⟨_, Table.mem_of_get? h, by simp⟩

/-- The path of a directory is not longer than that of a name in it. -/
theorem size_le_of_fits (hname : IsName name) (h : Fits p name) : p.text.utf8ByteSize ≤ pathLimit := by
  have hstarts : ∃ more, (p.child name).text.toList = p.text.toList ++ more := by
    rcases Path.child_cases hname.isPart p with ⟨hempty, -⟩ | ⟨-, cs, htext, hchild⟩ | ⟨-, hchild⟩
    · exact ⟨(p.child name).text.toList, by simp [hempty]⟩
    · exact ⟨name.toList, by rw [hchild, htext, ← List.append_cons]⟩
    · exact ⟨'/' :: name.toList, hchild⟩
  obtain ⟨more, hmore⟩ := hstarts
  have htext : (p.child name).text = p.text ++ String.ofList more :=
    String.toList_injective (by simp [hmore])
  refine Nat.le_trans ?_ h.2
  rw [htext, String.utf8ByteSize_append]
  exact Nat.le_add_right _ _

/-- A directory with a name that leads somewhere can be listed, unless its path is empty. -/
theorem list_of_reaches (h : t.Reaches p l) (hne : p.text ≠ "") (hname : IsName name)
    (hfits : Fits p name) : t.list p = .ok (t.children l) := by
  obtain rfl := h.destination
  have hsize := size_le_of_fits hname hfits
  have hwalk : t.Walkable (if p.isAbsolute then [] else t.workingDirectory) (walkNames p) := by
    rcases walkNames_cases p with hnames | hnames
    · rw [hnames]
      exact h.walkable
    · rw [hnames]
      exact walkable_append.mpr ⟨h.walkable, h.directory, by decide, trivial⟩
  have hlocate : ∃ l, t.locate p = .ok l := by
    rw [locate, if_neg hne, if_neg (by simpa using h.noNul), if_neg (Nat.not_lt.mpr hsize)]
    exact ⟨_, walk_eq_ok_iff.mpr ⟨hwalk, rfl⟩⟩
  obtain ⟨l, hlocate⟩ := hlocate
  obtain rfl := destination_of_locate hlocate
  rw [list, hlocate]
  simp only [h.directory]

end FileTree

namespace Environment

section Sweep

variable {processes : ProcessTable} {shadowDir : Path} {t now next t' : FileTree} {root : Location}
  {names removed : List String} {name : String} {events : List FileEvent}

/-- A location is one of these names in the root, or below it. -/
def Under (root : Location) (names : List String) (l : Location) : Prop :=
  ∃ name ∈ names, root ++ [name] <+: l

theorem under_cons {l : Location} :
    Under root (name :: names) l ↔ root ++ [name] <+: l ∨ Under root names l := by
  simp [Under]

/-- What is at a name in a root or below it is below no other name there. -/
theorem child_isPrefix_below {other : String} {rest : List String} :
    root ++ [other] <+: root ++ name :: rest ↔ other = name := by
  rw [List.prefix_append_right_inj, List.cons_prefix_cons]
  simp

/-- What is at a name in the root or below it is under these names when it is one of them. -/
theorem under_below {rest : List String} : Under root names (root ++ name :: rest) ↔ name ∈ names := by
  constructor
  · rintro ⟨other, hother, hbelow⟩
    exact child_isPrefix_below.mp hbelow ▸ hother
  · exact fun hname => ⟨name, hname, child_isPrefix_below.mpr rfl⟩

/-- Between two trees, directories of processes that are gone went away from the root with all that was in
them, and no more. -/
structure Swept (processes : ProcessTable) (root : Location) (t : FileTree) (removed : List String)
    (now : FileTree) : Prop where
  workingDirectory : now.workingDirectory = t.workingDirectory
  gone : ∀ name ∈ removed, IsOfGone processes name ∧ t.node? (root ++ [name]) = some .directory
  below : ∀ l, Under root removed l → now.node? l = none
  kept : ∀ l, ¬Under root removed l → now.node? l = t.node? l

theorem Swept.refl (processes : ProcessTable) (root : Location) (t : FileTree) :
    Swept processes root t [] t := by
  constructor
  · rfl
  · simp
  · simp [Under]
  · simp

/-- A sweep keeps a tree sound, since what is in a directory goes away with it. -/
theorem Swept.sound (h : Swept processes root t removed now) (ht : t.Sound) : now.Sound := by
  refine ⟨h.workingDirectory ▸ ht.place, fun l name hnode => ?_⟩
  have hkept : ¬Under root removed (l ++ [name]) := fun hunder => hnode (h.below _ hunder)
  rw [h.kept _ hkept] at hnode
  obtain ⟨hname, hdirectory⟩ := ht.housed l name hnode
  refine ⟨hname, (h.kept l ?_).trans hdirectory⟩
  rintro ⟨other, hother, hbelow⟩
  exact hkept ⟨other, hother, hbelow.trans (List.prefix_append _ _)⟩

/-- One more directory goes away, with all that is in it. -/
theorem Swept.removeTree (h : Swept processes (shadowDir.destination t.workingDirectory) t removed now)
    (hpart : IsPart name) (hgone : IsOfGone processes name)
    (hremove : now.removeTree (shadowDir.child name) = .ok next) :
    Swept processes (shadowDir.destination t.workingDirectory) t (name :: removed) next := by
  have hdirectory := directory_of_removeTree hremove
  obtain rfl := removeTree_ok hremove
  rw [h.workingDirectory, Path.destination_child hpart] at hdirectory ⊢
  have herase : ∀ l, (now.eraseBelow (shadowDir.destination t.workingDirectory ++ [name])).node? l = _ :=
    fun l => node?_eraseBelow_of_ne (by simp)
  have hthere : t.node? (shadowDir.destination t.workingDirectory ++ [name]) = some .directory := by
    rw [← h.kept _ fun hunder => ?_, hdirectory]
    cases (h.below _ hunder).symm.trans hdirectory
  refine ⟨h.workingDirectory, List.forall_mem_cons.mpr ⟨⟨hgone, hthere⟩, h.gone⟩, fun l hl => ?_,
    fun l hl => ?_⟩
  · rw [herase]
    split
    · rfl
    · next hnot => exact h.below l ((under_cons.mp hl).resolve_left hnot)
  · rw [under_cons, not_or] at hl
    rw [herase, if_neg hl.1, h.kept l hl.2]

/-- No removal of a directory that is there is refused. -/
def RemovalsSucceed (events : List FileEvent) : Prop :=
  ∀ event ∈ events, ∀ p, event.op = .removeTree p →
    event.before.node? (p.destination event.before.workingDirectory) = some .directory →
      event.outcome = .ok ()

/-- A try to remove a directory of a process that is gone takes it away or changes nothing. -/
theorem Swept.of_perform {result : Except OsError Unit}
    (h : Swept processes (shadowDir.destination t.workingDirectory) t removed now)
    (hpart : IsPart name) (hgone : IsOfGone processes name)
    (hperform : History (perform (.removeTree (shadowDir.child name))) now events result next) :
    ∃ more, Swept processes (shadowDir.destination t.workingDirectory) t more next ∧ removed ⊆ more ∧
      (RemovalsSucceed events →
        t.node? (shadowDir.destination t.workingDirectory ++ [name]) = some .directory → name ∈ more) := by
  rcases history_perform_iff.mp hperform with ⟨happly, -, -⟩ | ⟨e, -, rfl, rfl⟩
  · exact ⟨name :: removed, h.removeTree hpart hgone happly, List.subset_cons_self name removed,
      fun _ _ => List.mem_cons_self⟩
  · refine ⟨removed, h, List.Subset.refl removed, fun hsucceed hdirectory => ?_⟩
    -- The refused directory was removed before, or is still there.
    by_contra hname
    have hstill := (h.kept _ (mt under_below.mp hname)).trans hdirectory
    have hok := hsucceed _ List.mem_cons_self _ rfl (by
      rwa [Path.destination_child hpart, h.workingDirectory])
    cases hok

/-- To try one name after the other takes whole directories away, and all of them if none is refused. -/
theorem Swept.of_forM (h : Swept processes (shadowDir.destination t.workingDirectory) t removed now)
    (hnames : ∀ name ∈ names, IsPart name ∧ IsOfGone processes name)
    (hsweep : History (names.forM fun name => do
      let _ ← perform (.removeTree (shadowDir.child name))) now events () next) :
    ∃ more, Swept processes (shadowDir.destination t.workingDirectory) t more next ∧ removed ⊆ more ∧
      (RemovalsSucceed events → ∀ name ∈ names,
        t.node? (shadowDir.destination t.workingDirectory ++ [name]) = some .directory → name ∈ more) := by
  induction names generalizing now removed events with
  | nil =>
      obtain ⟨rfl, -, rfl⟩ := history_pure_iff.mp hsweep
      exact ⟨removed, h, List.Subset.refl removed, by simp⟩
  | cons name rest ih =>
      obtain ⟨hname, hrest⟩ := List.forall_mem_cons.mp hnames
      obtain ⟨first, _, t₁, second, rfl, hfirst, hsecond⟩ := history_bind_iff.mp hsweep
      obtain ⟨tried, _, t₂, nothing, rfl, htried, hnothing⟩ := history_bind_iff.mp hfirst
      obtain ⟨rfl, -, rfl⟩ := history_pure_iff.mp hnothing
      obtain ⟨some, hsome, hfewer, hfound⟩ := h.of_perform hname.1 hname.2 htried
      obtain ⟨more, hmore, hgrown, hall⟩ := ih hsome hrest hsecond
      refine ⟨more, hmore, List.Subset.trans hfewer hgrown, fun hsucceed => ?_⟩
      refine List.forall_mem_cons.mpr ⟨fun hdirectory => hgrown (hfound ?_ hdirectory), hall ?_⟩
      · exact fun event hevent => hsucceed event (by simp [hevent])
      · exact fun event hevent => hsucceed event (by simp [hevent])

/-- A sweep takes away directories of processes that are gone.  When the root can be listed and no removal
is refused, it takes away all of them. -/
theorem swept_of_history (ht : t.Sound)
    (h : History (removeDeadSnapshots processes shadowDir) t events () t') :
    ∃ removed, Swept processes (shadowDir.destination t.workingDirectory) t removed t' ∧
      (RemovalsSucceed events →
        t.list shadowDir = .ok (t.children (shadowDir.destination t.workingDirectory)) →
          ∀ name, IsOfGone processes name →
            t.node? (shadowDir.destination t.workingDirectory ++ [name]) = some .directory →
              name ∈ removed) := by
  obtain ⟨first, names, t₁, second, rfl, hfirst, hsecond⟩ := history_bind_iff.mp h
  obtain ⟨rfl, hnames, rfl⟩ := history_observe_iff.mp hfirst
  have hfound : ∀ name ∈ names, IsPart name ∧ IsOfGone processes name := by
    intro name hname
    rw [hnames] at hname
    cases hlist : t₁.list shadowDir with
    | error e =>
        rw [hlist] at hname
        cases hname
    | ok found =>
        simp only [hlist] at hname
        obtain ⟨hmem, hdead⟩ := List.mem_filter.mp hname
        obtain ⟨⟨other, node⟩, hentry, rfl⟩ := List.mem_map.mp hmem
        exact ⟨(ht.housed _ _ (node?_ne_none_of_list hlist hentry)).1.isPart,
          isDead_eq_true_iff.mp hdead⟩
  obtain ⟨removed, hswept, -, hall⟩ := (Swept.refl processes _ t₁).of_forM hfound hsecond
  refine ⟨removed, hswept, fun hsucceed hlist name hgone hdirectory => hall hsucceed name ?_ hdirectory⟩
  rw [hnames]
  simp only [hlist]
  refine List.mem_filter.mpr ⟨?_, isDead_eq_true_iff.mpr hgone⟩
  exact List.mem_map.mpr ⟨_, mem_children_of_node? hdirectory, rfl⟩

end Sweep

end Environment

end Automation
