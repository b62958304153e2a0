import Mathlib.Data.List.Forall2
import Automation.Proofs.Files.Histories
import Automation.Proofs.Files.Moves

/-
What actions see of the files.

Two trees are alike from a path when the same is below it, and the way to it leads through directories
where it does in the other.  An action whose paths go on from that path cannot tell such trees apart:
whichever way it can go in one of them, it can go in the other, by the same steps with the same outcomes
to the same value, and leave trees that are alike again.  So nothing it does depends on what is elsewhere.
-/

namespace Automation

/-- A step that was tried in one of two trees was tried in the other one with the same outcome, and
what had been related is so again.  Where the files decided in one of them they decided in both. -/
structure FileEvent.Mirrors (R : FileTree → FileTree → Prop) (event event' : FileEvent) : Prop where
  op : event'.op = event.op
  outcome : event'.outcome = event.outcome
  after : R event.after event'.after
  natural : event.IsNatural → event'.IsNatural

namespace FileAction

variable {α β : Type} {R : FileTree → FileTree → Prop}

/-- From another tree an action can go step by step the same way, to the same value. -/
def Mirrored (R : FileTree → FileTree → Prop) (action : FileAction α) (t' : FileTree)
    (events : List FileEvent) (value : α) (u : FileTree) : Prop :=
  ∃ events' u', History action t' events' value u' ∧
    List.Forall₂ (FileEvent.Mirrors R) events events' ∧ R u u'

/-- The action cannot tell related trees apart. -/
def Blind (R : FileTree → FileTree → Prop) (action : FileAction α) : Prop :=
  ∀ t t', R t t' → ∀ events value u, History action t events value u →
    Mirrored R action t' events value u

theorem isNatural_of_mirrors {events events' : List FileEvent}
    (h : List.Forall₂ (FileEvent.Mirrors R) events events')
    (hnatural : ∀ event ∈ events, event.IsNatural) : ∀ event ∈ events', event.IsNatural := by
  induction h with
  | nil => simp
  | cons hmirror _ ih =>
      obtain ⟨hfirst, hrest⟩ := List.forall_mem_cons.mp hnatural
      exact List.forall_mem_cons.mpr ⟨hmirror.natural hfirst, ih hrest⟩

/-- So its run comes to the same value in both. -/
theorem Blind.run {action : FileAction α} (h : Blind R action) {t t' : FileTree}
    (hrelated : R t t') :
    (action.run t').1 = (action.run t).1 ∧ R (action.run t).2 (action.run t').2 := by
  obtain ⟨events', u', hhistory, hmirrors, hafter⟩ :=
    h t t' hrelated _ _ _ (history_run action t)
  rw [hhistory.run_eq (isNatural_of_mirrors hmirrors (isNatural_of_mem_steps action t))]
  exact ⟨rfl, hafter⟩

theorem blind_pure (value : α) : Blind R (pure value : FileAction α) := by
  intro t t' hrelated events result u h
  obtain ⟨rfl, rfl, rfl⟩ := history_pure_iff.mp h
  exact ⟨[], t', history_pure_iff.mpr ⟨rfl, rfl, rfl⟩, .nil, hrelated⟩

/-- What comes next has to be blind only for values that can be come to. -/
theorem Blind.bind_of_history {action : FileAction α} {f : α → FileAction β} (h : Blind R action)
    (hf : ∀ t events value u, History action t events value u → Blind R (f value)) :
    Blind R (action >>= f) := by
  intro t t' hrelated events result u hhistory
  obtain ⟨first, value, t₁, second, rfl, hfirst, hsecond⟩ := history_bind_iff.mp hhistory
  obtain ⟨first', t₁', hfirst', hmirrors, hrelated₁⟩ := h t t' hrelated _ _ _ hfirst
  obtain ⟨second', u', hsecond', hmirrors', hafter⟩ :=
    hf _ _ _ _ hfirst t₁ t₁' hrelated₁ _ _ _ hsecond
  refine ⟨first' ++ second', u', ?_, List.rel_append hmirrors hmirrors', hafter⟩
  exact history_bind_iff.mpr ⟨first', value, t₁', second', rfl, hfirst', hsecond'⟩

theorem Blind.bind {action : FileAction α} {f : α → FileAction β} (h : Blind R action)
    (hf : ∀ value, Blind R (f value)) : Blind R (action >>= f) :=
  h.bind_of_history fun _ _ value _ _ => hf value

theorem blind_observe {f : FileTree → α} (h : ∀ t t', R t t' → f t' = f t) :
    Blind R (observe f) := by
  intro t t' hrelated events value u hhistory
  obtain ⟨rfl, rfl, rfl⟩ := history_observe_iff.mp hhistory
  exact ⟨[], t', history_observe_iff.mpr ⟨rfl, (h _ _ hrelated).symm, rfl⟩, .nil, hrelated⟩

/-- What becomes of two trees is the same: a step is refused for one reason, or done in both. -/
inductive SameOutcome (R : FileTree → FileTree → Prop) :
    Except OsError FileTree → Except OsError FileTree → Prop where
  | refused (e : OsError) : SameOutcome R (.error e) (.error e)
  | done {u u' : FileTree} (h : R u u') : SameOutcome R (.ok u) (.ok u')

theorem SameOutcome.ite {c : Prop} [Decidable c] {x x' y y' : Except OsError FileTree}
    (h : SameOutcome R x x') (hy : SameOutcome R y y') :
    SameOutcome R (if c then x else y) (if c then x' else y') := by
  by_cases hc : c
  · rw [if_pos hc, if_pos hc]
    exact h
  · rw [if_neg hc, if_neg hc]
    exact hy

theorem SameOutcome.exists_of_ok {u : FileTree} {x' : Except OsError FileTree}
    (h : SameOutcome R (.ok u) x') : ∃ u', x' = .ok u' ∧ R u u' := by
  cases h with
  | done hafter => exact ⟨_, rfl, hafter⟩

theorem SameOutcome.eq_of_error {e : OsError} {x' : Except OsError FileTree}
    (h : SameOutcome R (.error e) x') : x' = .error e := by
  cases h with
  | refused e => rfl

/-- When the files refuse a step it is for the reason that is given. -/
theorem error_of_outcome {op : FileOp} {t u : FileTree} {e : OsError}
    (h : outcome op t = (.error e, u)) : op.apply t = .error e := by
  rw [outcome] at h
  cases happly : op.apply t with
  | ok v =>
      rw [happly] at h
      cases h
  | error e' =>
      rw [happly] at h
      cases h
      rfl

theorem blind_perform {op : FileOp}
    (h : ∀ t t', R t t' → SameOutcome R (op.apply t) (op.apply t')) : Blind R (perform op) := by
  intro t t' hrelated events result u hhistory
  have hsame := h t t' hrelated
  rcases history_perform_iff.mp hhistory with ⟨happly, rfl, rfl⟩ | ⟨e, rfl, rfl, rfl⟩
  · rw [happly] at hsame
    obtain ⟨u', happly', hafter⟩ := hsame.exists_of_ok
    refine ⟨_, u', history_perform_iff.mpr (Or.inl ⟨happly', rfl, rfl⟩), ?_, hafter⟩
    refine .cons ⟨rfl, rfl, hafter, fun _ => ?_⟩ .nil
    rw [FileEvent.IsNatural, outcome, happly']
  · refine ⟨_, t', history_perform_iff.mpr (Or.inr ⟨e, rfl, rfl, rfl⟩), ?_, hrelated⟩
    refine .cons ⟨rfl, rfl, hrelated, fun hnatural => ?_⟩ .nil
    rw [FileEvent.IsNatural] at hnatural ⊢
    have happly := error_of_outcome hnatural
    rw [happly] at hsame
    rw [outcome, hsame.eq_of_error]

theorem blind_forM {values : List α} {act : α → FileAction Unit}
    (h : ∀ value ∈ values, Blind R (act value)) : Blind R (values.forM act) := by
  induction values with
  | nil => exact blind_pure ()
  | cons value rest ih =>
      obtain ⟨hfirst, hrest⟩ := List.forall_mem_cons.mp h
      exact hfirst.bind fun _ => ih hrest

theorem blind_makeDirectories {paths : List Path}
    (hmake : ∀ p ∈ paths, p.text ≠ "" → Blind R (perform (.makeDirectory p)))
    (hlook : ∀ p ∈ paths, p.text ≠ "" → ∀ t t', R t t' → t'.isDirectory p = t.isDirectory p) :
    Blind R (makeDirectories paths) := by
  induction paths with
  | nil => exact blind_pure _
  | cons p above ih =>
      obtain ⟨hmakeFirst, hmakeRest⟩ := List.forall_mem_cons.mp hmake
      obtain ⟨hlookFirst, hlookRest⟩ := List.forall_mem_cons.mp hlook
      rw [makeDirectories]
      by_cases hends : p.text = "" ∨ p.parent?.isNone = true
      · rw [if_pos hends]
        exact blind_pure _
      · rw [if_neg hends]
        have hne : p.text ≠ "" := fun hempty => hends (Or.inl hempty)
        have hseen : ∀ e : OsError, Blind R (do
            if ← observe (·.isDirectory p) then pure (.ok ()) else pure (.error e) :
            FileAction (Except OsError Unit)) := by
          intro e
          apply (blind_observe (hlookFirst hne)).bind
          intro found
          cases found
          · exact blind_pure _
          · exact blind_pure _
        apply (hmakeFirst hne).bind
        intro made
        split
        · exact blind_pure _
        · apply (ih hmakeRest hlookRest).bind
          intro madeAbove
          split
          · exact blind_pure _
          · apply (hmakeFirst hne).bind
            intro again
            split
            · exact blind_pure _
            · exact hseen _
        · exact hseen _

end FileAction

namespace FileTask

open FileAction

variable {α β : Type} {R : FileTree → FileTree → Prop}

theorem blind_bind {task : FileTask α} {f : α → FileTask β} (h : Blind R task.run)
    (hf : ∀ value, Blind R (f value).run) : Blind R (task >>= f).run := by
  apply Blind.bind h
  intro result
  cases result with
  | ok value => exact hf value
  | error failure => exact blind_pure _

theorem blind_lift {action : FileAction α} (h : Blind R action) :
    Blind R (ExceptT.lift action : FileTask α).run := h.bind fun _ => blind_pure _

theorem blind_during {activity : Activity} {action : FileAction (Except OsError α)}
    (h : Blind R action) : Blind R (during activity action).run := by
  apply Blind.bind h
  intro result
  cases result with
  | ok value => exact blind_pure _
  | error e => exact blind_pure _

theorem blind_forM {values : List α} {task : α → FileTask Unit}
    (h : ∀ value ∈ values, Blind R (task value).run) : Blind R (values.forM task).run := by
  induction values with
  | nil => exact blind_pure _
  | cons value rest ih =>
      obtain ⟨hfirst, hrest⟩ := List.forall_mem_cons.mp h
      exact blind_bind hfirst fun _ => ih hrest

end FileTask

namespace Path

/-- A path goes on from another one by at least one name. -/
def IsBelow (p q : Path) : Prop :=
  ∃ name rest, (∀ part ∈ name :: rest, IsPart part) ∧ q.names = p.names ++ name :: rest ∧
    q.isAbsolute = p.isAbsolute

/-- A path is on the way to one that goes on from another. -/
def IsOnWay (p q : Path) : Prop :=
  ∃ name rest, (∀ part ∈ name :: rest, IsPart part) ∧ q.names <+: p.names ++ name :: rest ∧
    q.isAbsolute = p.isAbsolute

variable {p q : Path} {name : String}

theorem IsBelow.isOnWay (h : p.IsBelow q) : p.IsOnWay q := by
  obtain ⟨name, rest, hparts, hnames, habsolute⟩ := h
  exact ⟨name, rest, hparts, hnames ▸ List.prefix_rfl, habsolute⟩

theorem isBelow_child (hname : IsPart name) : p.IsBelow (p.child name) := by
  refine ⟨name, [], ?_, names_child hname, isAbsolute_child hname⟩
  intro part hpart
  obtain rfl := List.mem_singleton.mp hpart
  exact hname

theorem IsBelow.child (h : p.IsBelow q) (hname : IsPart name) : p.IsBelow (q.child name) := by
  obtain ⟨first, rest, hparts, hnames, habsolute⟩ := h
  refine ⟨first, rest ++ [name], ?_, ?_, ?_⟩
  · intro part hpart
    rw [← List.cons_append, List.mem_append, List.mem_singleton] at hpart
    rcases hpart with hpart | rfl
    · exact hparts part hpart
    · exact hname
  · rw [names_child hname, hnames, List.append_assoc, List.cons_append]
  · rw [isAbsolute_child hname, habsolute]

theorem IsBelow.ancestor (h : p.IsBelow q) {a : Path} (ha : a ∈ q.ancestors) (hne : a.text ≠ "") :
    p.IsOnWay a := by
  obtain ⟨name, rest, hparts, hnames, habsolute⟩ := h
  rcases names_of_mem_ancestors ha with hempty | ⟨hfirst, hsame⟩
  · exact absurd hempty hne
  · exact ⟨name, rest, hparts, hnames ▸ hfirst, hsame.trans habsolute⟩

theorem IsOnWay.withoutSlashes (h : p.IsOnWay q) : p.IsOnWay (FileTree.withoutSlashes q) := by
  obtain ⟨hnames, habsolute⟩ := names_withoutSlashes q
  rw [IsOnWay, hnames, habsolute]
  exact h

/-- The way to a path below another one leads along that one and then down. -/
theorem IsOnWay.lead_cases (h : p.IsOnWay q) (wd : Location) {before : List String}
    (hbefore : before <+: q.names) :
    (before <+: p.names ∧ FileTree.lead (q.origin wd) before = FileTree.lead (p.origin wd) before) ∨
      ∃ name rest, FileTree.lead (q.origin wd) before = p.destination wd ++ name :: rest := by
  obtain ⟨name, rest, hparts, hnames, habsolute⟩ := h
  have horigin : q.origin wd = p.origin wd := by rw [origin, origin, habsolute]
  rw [horigin]
  have hway : before <+: p.names ++ name :: rest := hbefore.trans hnames
  rcases List.prefix_or_prefix_of_prefix hway (List.prefix_append p.names (name :: rest)) with
    hshort | ⟨more, rfl⟩
  · exact Or.inl ⟨hshort, rfl⟩
  · have hmore : more <+: name :: rest := (List.prefix_append_right_inj p.names).mp hway
    cases more with
    | nil =>
        rw [List.append_nil]
        exact Or.inl ⟨List.prefix_rfl, rfl⟩
    | cons first others =>
        refine Or.inr ⟨first, others, ?_⟩
        rw [FileTree.lead_append, ← destination]
        exact lead_isPart (fun part hpart => hparts part (hmore.subset hpart)) _

/-- A path that goes on from another one leads below it. -/
theorem IsBelow.destination_eq (h : p.IsBelow q) (wd : Location) :
    ∃ name rest, q.destination wd = p.destination wd ++ name :: rest := by
  obtain ⟨name, rest, hparts, hnames, habsolute⟩ := h
  refine ⟨name, rest, ?_⟩
  rw [destination, destination, hnames, origin, origin, habsolute, FileTree.lead_append]
  exact lead_isPart hparts _

theorem IsBelow.destination_ne_nil (h : p.IsBelow q) (wd : Location) : q.destination wd ≠ [] := by
  obtain ⟨name, rest, heq⟩ := h.destination_eq wd
  rw [heq]
  simp

end Path

/-- Whether there is a directory. -/
def Node.isDirectory : Node → Bool
  | .directory => true
  | .file .. => false

/-- What is not at the front is looked up in the rest. -/
theorem Table.get?_append_of_get?_eq_none {κ α : Type} [DecidableEq κ] {key : κ}
    {first second : Table κ α} (h : get? key first = none) :
    get? key (first ++ second) = get? key second := by
  induction first with
  | nil => rfl
  | cons entry rest ih =>
      obtain ⟨other, value⟩ := entry
      rw [get?] at h
      by_cases hother : other = key
      · rw [if_pos hother] at h
        cases h
      · rw [if_neg hother] at h
        rw [List.cons_append, get?, if_neg hother, ih h]

namespace FileTree

variable {t t' u u' : FileTree} {p q : Path} {l m here : Location}

/-- What kind of node is at a location. -/
def kind? (t : FileTree) (l : Location) : Option Bool := (t.node? l).map Node.isDirectory

/-- Where the kinds are the same there is nothing in both trees, or a file, or a directory. -/
theorem cases_of_kind (h : t'.kind? l = t.kind? l) :
    (t.node? l = none ∧ t'.node? l = none) ∨
      (∃ content executable content' executable', t.node? l = some (.file content executable) ∧
        t'.node? l = some (.file content' executable')) ∨
      t.node? l = some .directory ∧ t'.node? l = some .directory := by
  rw [kind?, kind?] at h
  rcases hnode : t.node? l with _ | (⟨content, executable⟩ | _) <;>
    rcases hnode' : t'.node? l with _ | (⟨content', executable'⟩ | _) <;>
      simp_all [Node.isDirectory]

/-- Walking depends on the kinds of what is on the way. -/
theorem walk_congr {names : List String}
    (h : ∀ before, before <+: names → t'.kind? (lead here before) = t.kind? (lead here before)) :
    t'.walk here names = t.walk here names := by
  induction names generalizing here with
  | nil => rfl
  | cons name rest ih =>
      have hrest : t'.walk (follow here name) rest = t.walk (follow here name) rest :=
        ih fun before hbefore => h (name :: before) (List.cons_prefix_cons.mpr ⟨rfl, hbefore⟩)
      rcases cases_of_kind (h [] List.nil_prefix) with
        ⟨hnode, hnode'⟩ | ⟨_, _, _, _, hnode, hnode'⟩ | ⟨hnode, hnode'⟩
      · rw [lead_nil] at hnode hnode'
        rw [walk, walk, hnode, hnode']
      · rw [lead_nil] at hnode hnode'
        rw [walk, walk, hnode, hnode']
      · rw [lead_nil] at hnode hnode'
        rw [walk_cons_of_directory hnode, walk_cons_of_directory hnode', hrest]

/-- Whether there is anything in a directory says what is at the locations in it. -/
theorem children_ne_nil_iff : t.children l ≠ [] ↔ ∃ name, t.node? (l ++ [name]) ≠ none := by
  constructor
  · intro h
    obtain ⟨child, hmem⟩ := List.exists_mem_of_ne_nil _ h
    rw [children] at hmem
    obtain ⟨⟨other, n⟩, hentry, hchild⟩ := List.mem_filterMap.mp hmem
    dsimp only at hchild
    split at hchild
    · next hbelow =>
      obtain ⟨name, hlast, -⟩ := Option.map_eq_some_iff.mp hchild
      obtain ⟨before, rfl⟩ := List.getLast?_eq_some_iff.mp hlast
      rw [List.dropLast_concat] at hbelow
      exact ⟨name, hbelow.2 ▸ node?_ne_none_of_mem hentry⟩
    · cases hchild
  · rintro ⟨name, hname⟩ hnil
    obtain ⟨n, hnode⟩ := Option.ne_none_iff_exists'.mp hname
    rw [node?, if_neg (by simp)] at hnode
    have hchild : (name, n) ∈ t.children l := by
      rw [children]
      exact List.mem_filterMap.mpr ⟨_, Table.mem_of_get? hnode, by simp⟩
    rw [hnil] at hchild
    cases hchild

/-- What was moved is found below the new location as it was below the old one. -/
theorem node?_moveBelow_new (hl : l ≠ []) (hm : m ≠ []) (rest : Location) :
    (t.moveBelow l m).node? (m ++ rest) = t.node? (l ++ rest) := by
  have hmoved : ∀ entries : Table Location Node,
      Table.get? (m ++ rest) (entries.filterMap fun entry =>
        if l.isPrefixOf entry.1 then some (m ++ entry.1.drop l.length, entry.2) else none) =
          Table.get? (l ++ rest) entries := by
    intro entries
    induction entries with
    | nil => rfl
    | cons entry others ih =>
        obtain ⟨other, n⟩ := entry
        rw [Table.get?]
        by_cases hbelow : l.isPrefixOf other = true
        · obtain ⟨more, rfl⟩ := List.isPrefixOf_iff_prefix.mp hbelow
          rw [List.filterMap_cons, if_pos hbelow, List.drop_left]
          dsimp only
          rw [Table.get?, ih]
          simp only [List.append_right_inj]
        · have hother : other ≠ l ++ rest := by
            rintro rfl
            exact hbelow (List.isPrefixOf_iff_prefix.mpr (List.prefix_append l rest))
          rw [List.filterMap_cons, if_neg hbelow, if_neg hother]
          exact ih
  have hgone : ((t.eraseBelow l).eraseBelow m).node? (m ++ rest) = none := by
    rw [node?_eraseBelow_of_ne hm, if_pos (List.prefix_append m rest)]
  rw [node?, if_neg (by simp [hm])] at hgone
  rw [node?, node?, if_neg (by simp [hm]), if_neg (by simp [hl]), moveBelow]
  exact (Table.get?_append_of_get?_eq_none hgone).trans (hmoved t.entries)

/-- At the old location and below it nothing is left, save for what is below the new one. -/
theorem node?_moveBelow_old (hl : l ≠ []) {other : Location} (hold : l <+: other)
    (hnew : ¬m <+: other) : (t.moveBelow l m).node? other = none := by
  have hother : other ≠ [] := by
    rintro rfl
    exact hl (List.prefix_nil.mp hold)
  have hgone : ((t.eraseBelow l).eraseBelow m).node? other = none := by
    rw [node?_eraseBelow_other hnew, node?_eraseBelow_of_ne hl, if_pos hold]
  rw [node?, if_neg hother] at hgone
  rw [node?, if_neg hother, moveBelow, ← hgone]
  apply Table.get?_append_of_forall_ne
  intro entry hentry
  obtain ⟨⟨old, n⟩, -, hmoved⟩ := List.mem_filterMap.mp hentry
  dsimp only at hmoved
  split at hmoved
  · obtain rfl := Option.some.inj hmoved
    rintro rfl
    exact hnew (List.prefix_append _ _)
  · cases hmoved

/-- Two trees are alike from a path. -/
structure AlikeFrom (p : Path) (t t' : FileTree) : Prop where
  workingDirectory : t'.workingDirectory = t.workingDirectory
  way : ∀ before, before <+: p.names →
    t'.kind? (lead (p.origin t.workingDirectory) before) =
      t.kind? (lead (p.origin t.workingDirectory) before)
  below : ∀ name rest, t'.node? (p.destination t.workingDirectory ++ name :: rest) =
    t.node? (p.destination t.workingDirectory ++ name :: rest)

/-- What changes only in the same way leaves trees alike. -/
theorem AlikeFrom.of_changes (h : AlikeFrom p t t')
    (hwd : u.workingDirectory = t.workingDirectory) (hwd' : u'.workingDirectory = t'.workingDirectory)
    (hnode : ∀ other, u'.node? other = u.node? other ∨
      u.node? other = t.node? other ∧ u'.node? other = t'.node? other) : AlikeFrom p u u' := by
  refine ⟨(hwd'.trans h.workingDirectory).trans hwd.symm, ?_, ?_⟩
  · intro before hbefore
    rw [hwd]
    rcases hnode (lead (p.origin t.workingDirectory) before) with hsame | ⟨hold, hold'⟩
    · rw [kind?, kind?, hsame]
    · rw [kind?, kind?, hold, hold']
      exact h.way before hbefore
  · intro name rest
    rw [hwd]
    rcases hnode (p.destination t.workingDirectory ++ name :: rest) with hsame | ⟨hold, hold'⟩
    · exact hsame
    · rw [hold, hold']
      exact h.below name rest

namespace AlikeFrom

open FileAction

theorem kind (h : AlikeFrom p t t') (hq : p.IsOnWay q) {before : List String}
    (hbefore : before <+: q.names) :
    t'.kind? (lead (q.origin t.workingDirectory) before) =
      t.kind? (lead (q.origin t.workingDirectory) before) := by
  rcases hq.lead_cases t.workingDirectory hbefore with ⟨hway, heq⟩ | ⟨name, rest, heq⟩
  · rw [heq]
    exact h.way before hway
  · rw [heq, kind?, kind?, h.below]

/-- Paths on the way lead to the same locations. -/
theorem locate (h : AlikeFrom p t t') (hq : p.IsOnWay q) : t'.locate q = t.locate q := by
  have hwalk : t'.walk (q.origin t.workingDirectory) (walkNames q) =
      t.walk (q.origin t.workingDirectory) (walkNames q) := by
    apply walk_congr
    intro before hbefore
    rcases walkNames_cases q with hnames | hnames
    · exact h.kind hq (hnames ▸ hbefore)
    · rw [hnames] at hbefore
      rcases List.prefix_concat_iff.mp hbefore with rfl | hshort
      · rw [lead_append]
        exact h.kind hq List.prefix_rfl
      · exact h.kind hq hshort
  rw [Path.origin] at hwalk
  rw [FileTree.locate, FileTree.locate, h.workingDirectory, hwalk]

theorem isDirectory (h : AlikeFrom p t t') (hq : p.IsOnWay q) :
    t'.isDirectory q = t.isDirectory q := by
  rw [FileTree.isDirectory, FileTree.isDirectory, FileTree.stat, FileTree.stat, h.locate hq]
  cases hfound : t.locate q with
  | error e => rfl
  | ok l =>
      obtain rfl := destination_of_locate hfound
      rcases cases_of_kind (h.kind hq List.prefix_rfl) with
        ⟨hnode, hnode'⟩ | ⟨_, _, _, _, hnode, hnode'⟩ | ⟨hnode, hnode'⟩
      all_goals
        rw [← Path.destination] at hnode hnode'
        simp only [hnode, hnode']

theorem node (h : AlikeFrom p t t') (hq : p.IsBelow q) (rest : Location) :
    t'.node? (q.destination t.workingDirectory ++ rest) =
      t.node? (q.destination t.workingDirectory ++ rest) := by
  obtain ⟨name, more, heq⟩ := hq.destination_eq t.workingDirectory
  rw [heq, List.append_assoc, List.cons_append]
  exact h.below name (more ++ rest)

/-- Below the path the same is found. -/
theorem stat (h : AlikeFrom p t t') (hq : p.IsBelow q) : t'.stat q = t.stat q := by
  have hlocate := h.locate hq.isOnWay
  rw [FileTree.stat, FileTree.stat, hlocate]
  cases hfound : t.locate q with
  | error e => rfl
  | ok l =>
      obtain rfl := destination_of_locate hfound
      have hnode := h.node hq []
      rw [List.append_nil] at hnode
      simp only [hnode]

theorem isFile (h : AlikeFrom p t t') (hq : p.IsBelow q) : t'.isFile q = t.isFile q := by
  rw [FileTree.isFile, FileTree.isFile, h.stat hq]

theorem exists? (h : AlikeFrom p t t') (hq : p.IsBelow q) : t'.exists? q = t.exists? q := by
  rw [FileTree.exists?, FileTree.exists?, h.stat hq]

theorem readBytes (h : AlikeFrom p t t') (hq : p.IsBelow q) :
    t'.readBytes q = t.readBytes q := by
  rw [FileTree.readBytes, FileTree.readBytes, h.stat hq]

section Steps

variable {r : Path}

theorem node_eq (h : AlikeFrom p t t') (hq : p.IsBelow q) :
    t'.node? (q.destination t.workingDirectory) = t.node? (q.destination t.workingDirectory) := by
  have hnode := h.node hq []
  rwa [List.append_nil] at hnode

/-- A node comes to one place of both trees. -/
theorem put (h : AlikeFrom p t t') {l : Location} (hl : l ≠ []) (n : Node) :
    AlikeFrom p (t.put l n) (t'.put l n) := by
  refine h.of_changes rfl rfl ?_
  intro other
  rw [node?_put_of_ne hl, node?_put_of_ne hl]
  by_cases hother : other = l
  · rw [if_pos hother, if_pos hother]
    exact Or.inl rfl
  · rw [if_neg hother, if_neg hother]
    exact Or.inr ⟨rfl, rfl⟩

theorem erase (h : AlikeFrom p t t') {l : Location} (hl : l ≠ []) :
    AlikeFrom p (t.erase l) (t'.erase l) := by
  refine h.of_changes rfl rfl ?_
  intro other
  rw [node?_erase_of_ne hl, node?_erase_of_ne hl]
  by_cases hother : other = l
  · rw [if_pos hother, if_pos hother]
    exact Or.inl rfl
  · rw [if_neg hother, if_neg hother]
    exact Or.inr ⟨rfl, rfl⟩

theorem eraseBelow (h : AlikeFrom p t t') {l : Location} (hl : l ≠ []) :
    AlikeFrom p (t.eraseBelow l) (t'.eraseBelow l) := by
  refine h.of_changes rfl rfl ?_
  intro other
  rw [node?_eraseBelow_of_ne hl, node?_eraseBelow_of_ne hl]
  by_cases hother : l <+: other
  · rw [if_pos hother, if_pos hother]
    exact Or.inl rfl
  · rw [if_neg hother, if_neg hother]
    exact Or.inr ⟨rfl, rfl⟩

/-- What is below one place of both trees comes below another one. -/
theorem moveBelow (h : AlikeFrom p t t') {l m : Location} (hl : l ≠ []) (hm : m ≠ [])
    (hbelow : ∀ rest, t'.node? (l ++ rest) = t.node? (l ++ rest)) :
    AlikeFrom p (t.moveBelow l m) (t'.moveBelow l m) := by
  refine h.of_changes rfl rfl ?_
  intro other
  by_cases hnew : m <+: other
  · obtain ⟨rest, rfl⟩ := hnew
    rw [node?_moveBelow_new hl hm, node?_moveBelow_new hl hm]
    exact Or.inl (hbelow rest)
  · by_cases hold : l <+: other
    · rw [node?_moveBelow_old hl hold hnew, node?_moveBelow_old hl hold hnew]
      exact Or.inl rfl
    · rw [node?_moveBelow_other hold hnew, node?_moveBelow_other hold hnew]
      exact Or.inr ⟨rfl, rfl⟩

/-- A directory on the way is made in both trees or in none. -/
theorem makeDirectory (h : AlikeFrom p t t') (hq : p.IsOnWay q) :
    SameOutcome (AlikeFrom p) (t.makeDirectory q) (t'.makeDirectory q) := by
  rw [FileTree.makeDirectory, FileTree.makeDirectory, h.locate hq.withoutSlashes]
  cases hfound : t.locate (withoutSlashes q) with
  | error e => exact .refused e
  | ok l =>
      have hl := destination_of_locate hfound
      rw [Path.destination_withoutSlashes, Path.destination] at hl
      have hkind := h.kind hq List.prefix_rfl
      rw [← hl] at hkind
      rcases cases_of_kind hkind with
        ⟨hnode, hnode'⟩ | ⟨_, _, _, _, hnode, hnode'⟩ | ⟨hnode, hnode'⟩
      · have hroot : l ≠ [] := by
          rintro rfl
          rw [node?_root] at hnode
          cases hnode
        simp only [hnode, hnode']
        exact .done (h.put hroot .directory)
      · simp only [hnode, hnode']
        exact .refused _
      · simp only [hnode, hnode']
        exact .refused _

theorem unlink (h : AlikeFrom p t t') (hq : p.IsBelow q) :
    SameOutcome (AlikeFrom p) (t.unlink q) (t'.unlink q) := by
  rw [FileTree.unlink, FileTree.unlink, h.locate hq.isOnWay]
  cases hfound : t.locate q with
  | error e => exact .refused e
  | ok l =>
      have hroot := hq.destination_ne_nil t.workingDirectory
      have hnode := h.node_eq hq
      rw [← destination_of_locate hfound] at hroot hnode
      simp only [hnode]
      rcases t.node? l with _ | (⟨content, executable⟩ | _)
      · exact .refused _
      · exact .done (h.erase hroot)
      · exact .refused _

theorem removeTree (h : AlikeFrom p t t') (hq : p.IsBelow q) :
    SameOutcome (AlikeFrom p) (t.removeTree q) (t'.removeTree q) := by
  rw [FileTree.removeTree, FileTree.removeTree, h.locate hq.isOnWay]
  cases hfound : t.locate q with
  | error e => exact .refused e
  | ok l =>
      have hroot := hq.destination_ne_nil t.workingDirectory
      have hnode := h.node_eq hq
      rw [← destination_of_locate hfound] at hroot hnode
      simp only [hnode]
      rcases t.node? l with _ | (⟨content, executable⟩ | _)
      · exact .refused _
      · exact .refused _
      · exact .done (h.eraseBelow hroot)

theorem rename (h : AlikeFrom p t t') (hq : p.IsBelow q) (hr : p.IsBelow r) :
    SameOutcome (AlikeFrom p) (t.rename q r) (t'.rename q r) := by
  rw [FileTree.rename, FileTree.rename, h.locate hq.isOnWay, h.locate hr.isOnWay]
  cases hfound : t.locate q with
  | error e => exact .refused e
  | ok l =>
  cases hfound' : t.locate r with
  | error e => exact .refused e
  | ok m =>
  have hold := hq.destination_ne_nil t.workingDirectory
  have hnew := hr.destination_ne_nil t.workingDirectory
  have hnode := h.node hq
  have hnode' := h.node hr
  rw [← destination_of_locate hfound] at hold hnode
  rw [← destination_of_locate hfound'] at hnew hnode'
  have hchildren : t'.children m ≠ [] ↔ t.children m ≠ [] := by
    rw [children_ne_nil_iff, children_ne_nil_iff]
    simp only [hnode']
  have hat : t'.node? l = t.node? l := by simpa using hnode []
  have hat' : t'.node? m = t.node? m := by simpa using hnode' []
  have hput : ∀ content executable,
      AlikeFrom p ((t.erase l).put m (.file content executable))
        ((t'.erase l).put m (.file content executable)) :=
    fun content executable => (h.erase hold).put hnew _
  have hmove := h.moveBelow hold hnew hnode
  simp only [hat, hat', hchildren]
  -- By the kinds of what is moved and of what is in its place.
  rcases t.node? l with _ | (⟨content, executable⟩ | _)
  · exact .refused _
  · rcases t.node? m with _ | (⟨old, runs⟩ | _)
    · exact (SameOutcome.done h).ite (.done (hput content executable))
    · exact (SameOutcome.done h).ite (.done (hput content executable))
    · exact .refused _
  · rcases t.node? m with _ | (⟨old, runs⟩ | _)
    · exact (SameOutcome.done h).ite ((SameOutcome.refused _).ite
        ((SameOutcome.refused _).ite (.done hmove)))
    · exact .refused _
    · exact (SameOutcome.done h).ite ((SameOutcome.refused _).ite
        ((SameOutcome.refused _).ite (.done hmove)))

end Steps

theorem blind_createDirectory (hq : p.IsBelow q) : Blind (AlikeFrom p) (createDirectory q) := by
  apply blind_makeDirectories
  · intro a ha hne
    apply blind_perform
    exact fun t t' h => h.makeDirectory (hq.ancestor ha hne)
  · intro a ha hne t t' h
    exact h.isDirectory (hq.ancestor ha hne)

theorem blind_removeIfExists (hq : p.IsBelow q) : Blind (AlikeFrom p) (removeIfExists q) := by
  apply (blind_perform fun _ _ h => h.unlink hq).bind
  intro outcome
  split
  · exact blind_pure _
  · exact blind_pure _

theorem blind_removeTree (hq : p.IsBelow q) : Blind (AlikeFrom p) (perform (.removeTree q)) :=
  blind_perform fun _ _ h => h.removeTree hq

theorem blind_rename {r : Path} (hq : p.IsBelow q) (hr : p.IsBelow r) :
    Blind (AlikeFrom p) (perform (.rename q r)) :=
  blind_perform fun _ _ h => h.rename hq hr

end AlikeFrom

end FileTree

end Automation
