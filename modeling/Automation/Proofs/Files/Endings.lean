import Automation.Proofs.Files.Extensions

/-
The name at the end of a path.

Behind the last name of a path there may be slashes and single dots, which separate nothing.  Without them
the path is a front and the name, and as far as its text goes it leads to the name below where the front
leads.  Another extension changes the name alone, save for a name of dots that has no stem left.
-/

namespace Automation

namespace Path

variable {p q : Path} {name : String} {front cs idle : List Char}

/-- What separates nothing at the end of a path, from the end on: slashes and dots behind slashes. -/
inductive Idle : List Char → Prop where
  | nil : Idle []
  | slash {rest : List Char} (h : Idle rest) : Idle ('/' :: rest)
  | dot {rest : List Char} (h : Idle rest) : Idle ('.' :: '/' :: rest)

/-- All that is dropped from the end of a path separates nothing, unless only the root is left. -/
theorem idle_of_trimTail (cs : List Char) :
    ∃ idle, cs = idle ++ trimTail cs ∧
      (Idle idle ∧ (trimTail cs).head? ≠ some '/' ∨ trimTail cs = ['/']) := by
  fun_induction trimTail cs with
  | case1 => exact ⟨[], rfl, Or.inr rfl⟩
  | case2 rest hrest ih =>
      obtain ⟨idle, hcs, hend⟩ := ih
      refine ⟨'/' :: idle, by rw [List.cons_append, ← hcs], ?_⟩
      exact hend.imp_left fun h => ⟨h.1.slash, h.2⟩
  | case3 rest ih =>
      obtain ⟨idle, hcs, hend⟩ := ih
      refine ⟨'.' :: idle, by rw [List.cons_append, ← hcs], ?_⟩
      refine hend.imp_left fun h => ⟨?_, h.2⟩
      cases h.1 with
      | nil => exact absurd (by rw [← List.nil_append (trimTail _), ← hcs]; rfl) h.2
      | slash hidle => exact hidle.dot
      | dot hidle => cases hcs
  | case4 cs hroot hslash hdot =>
      refine ⟨[], rfl, Or.inl ⟨.nil, fun hhead => ?_⟩⟩
      obtain ⟨rest, rfl⟩ := List.head?_eq_some_iff.mp hhead
      exact hslash rest rfl

theorem trimTail_idle (h : Idle idle) (hcs : cs ≠ []) : trimTail (idle ++ cs) = trimTail cs := by
  have hslash : ∀ rest, rest ≠ [] → trimTail ('/' :: rest) = trimTail rest := fun rest hrest => by
    rw [trimTail]
    rintro rfl
    exact hrest rfl
  induction h with
  | nil => rfl
  | slash h ih => rw [List.cons_append, hslash _ (by simp [hcs]), ih]
  | dot h ih =>
      rw [List.cons_append, List.cons_append, trimTail, hslash _ (by simp [hcs]), ih]

/-- The names behind the last one are single dots. -/
theorem namesOf_idle (h : Idle idle) (before : List Char) :
    ∃ dots, namesOf (before ++ idle.reverse) = namesOf before ++ dots ∧ ∀ dot ∈ dots, dot = "." := by
  induction h with
  | nil => exact ⟨[], by simp, by simp⟩
  | slash h ih =>
      obtain ⟨dots, hnames, hdots⟩ := ih
      refine ⟨dots, ?_, hdots⟩
      rw [List.reverse_cons, ← List.append_assoc, namesOf_append_slash, namesOf_nil, hnames,
        List.append_nil]
  | dot h ih =>
      obtain ⟨dots, hnames, hdots⟩ := ih
      have hdot : namesOf ['.'] = ["."] := by decide
      refine ⟨dots ++ ["."], ?_, by simpa [or_imp, forall_and] using hdots⟩
      rw [List.reverse_cons, List.reverse_cons, List.append_assoc, List.cons_append,
        List.nil_append, ← List.append_assoc, namesOf_append_slash, hnames, hdot, List.append_assoc]

theorem lead_dots {dots : List String} (h : ∀ dot ∈ dots, dot = ".") (here : Location) :
    FileTree.lead here dots = here := by
  induction dots with
  | nil => rfl
  | cons dot rest ih =>
      obtain ⟨rfl, hrest⟩ := List.forall_mem_cons.mp h
      exact ih hrest

section Fronts

/-- What ends in a slash has its names apart from those behind it. -/
theorem namesOf_front_append (hends : front = [] ∨ front.getLast? = some '/') (cs : List Char) :
    namesOf (front ++ cs) = namesOf front ++ namesOf cs := by
  rcases hends with rfl | hlast
  · rw [namesOf_nil, List.nil_append, List.nil_append]
  · obtain ⟨before, rfl⟩ := List.getLast?_eq_some_iff.mp hlast
    rw [List.append_assoc, List.singleton_append, namesOf_append_slash, namesOf_append_slash,
      namesOf_nil, List.append_nil]

theorem isAbsolute_front_append (htext : p.text.toList = front ++ cs) (hcs : cs.head? ≠ some '/') :
    p.isAbsolute = (Path.mk (String.ofList front)).isAbsolute := by
  rw [isAbsolute, isAbsolute, htext, String.toList_ofList]
  cases front with
  | nil => simpa using hcs
  | cons c rest => rfl

/-- Two dots behind a front lead to the directory above. -/
theorem destination_up (hends : front = [] ∨ front.getLast? = some '/')
    (htext : p.text.toList = front ++ ['.', '.']) (wd : Location) :
    p.destination wd = ((Path.mk (String.ofList front)).destination wd).dropLast := by
  have hup : namesOf ['.', '.'] = [".."] := by decide
  rw [destination, destination, origin, origin, isAbsolute_front_append htext (by decide), names,
    htext, namesOf_front_append hends, hup, FileTree.lead_append, names, String.toList_ofList]
  rfl

end Fronts

/-- A path is a front, a name and what separates nothing. -/
structure EndsIn (p : Path) (front : List Char) (name : String) : Prop where
  ends : front = [] ∨ front.getLast? = some '/'
  part : IsPart name
  text : ∃ idle, Idle idle ∧ p.text.toList = front ++ name.toList ++ idle.reverse

theorem exists_endsIn (h : p.fileName? = some name) : ∃ front, p.EndsIn front name := by
  obtain ⟨idle, htext, hend⟩ := idle_of_trimTail p.text.toList.reverse
  rw [fileName?, reversedTail] at h
  generalize trimTail p.text.toList.reverse = kept at htext hend h
  split at h
  · cases h
  next hpart =>
  simp only [not_or] at hpart
  obtain rfl := Option.some.inj h
  have hidle : Idle idle := by
    rcases hend with hidle | rfl
    · exact hidle.1
    · exact absurd rfl hpart.1
  refine ⟨(kept.dropWhile (· ≠ '/')).reverse, ?_, ?_, idle, hidle, ?_⟩
  · cases hdrop : kept.dropWhile (· ≠ '/') with
    | nil => exact Or.inl rfl
    | cons c rest =>
        have hnot := List.head?_dropWhile_not (· ≠ '/') kept
        rw [hdrop] at hnot
        exact Or.inr (by simpa using hnot)
  · refine ⟨hpart.1, hpart.2.1, hpart.2.2, fun hslash => ?_⟩
    rw [String.toList_ofList, List.mem_reverse] at hslash
    simpa using List.all_eq_true.mp List.all_takeWhile _ hslash
  · rw [String.toList_ofList, ← List.reverse_append, List.takeWhile_append_dropWhile,
      ← List.reverse_append, ← htext, List.reverse_reverse]

namespace EndsIn

/-- From the end on, the path starts with the name. -/
theorem reversedTail (h : p.EndsIn front name) :
    p.reversedTail = name.toList.reverse ++ front.reverse := by
  obtain ⟨idle, hidle, htext⟩ := h.text
  have hne : name.toList.reverse ≠ [] := by simpa using h.part.ne_empty
  have hnoSlash : '/' ∉ name.toList.reverse := by simpa using h.part.noSlash
  rw [Path.reversedTail, htext, List.reverse_append, List.reverse_reverse, List.reverse_append,
    trimTail_idle hidle (by simp [h.part.ne_empty])]
  cases hcs : name.toList.reverse with
  | nil => exact absurd hcs hne
  | cons c rest =>
      rw [hcs] at hnoSlash
      have hc : c ≠ '/' := fun heq => hnoSlash (heq ▸ List.mem_cons_self)
      refine trimTail.eq_4 _ ?_ ?_ ?_
      · intro heq
        exact hc (List.cons.inj heq).1
      · intro others heq
        exact hc (List.cons.inj heq).1
      · intro others heq
        obtain ⟨hdot, heq⟩ := List.cons.inj heq
        cases rest with
        | nil =>
            -- The name would be a single dot.
            refine h.part.ne_here (String.toList_inj.mp ?_)
            rw [← List.reverse_reverse name.toList, hcs, hdot]
            rfl
        | cons second rest =>
            refine hnoSlash (List.mem_cons_of_mem c ?_)
            rw [(List.cons.inj heq).1]
            exact List.mem_cons_self

theorem head?_front_reverse (h : p.EndsIn front name) :
    front.reverse = [] ∨ front.reverse.head? = some '/' := by
  rcases h.ends with rfl | hlast
  · exact Or.inl rfl
  · exact Or.inr (by rw [List.head?_reverse, hlast])

theorem fileName? (h : p.EndsIn front name) : p.fileName? = some name := by
  have hnoSlash : ∀ c ∈ name.toList.reverse, decide (c ≠ '/') = true := fun c hc => by
    simpa using fun heq : c = '/' => h.part.noSlash (heq ▸ List.mem_reverse.mp hc)
  have htake : (name.toList.reverse ++ front.reverse).takeWhile (· ≠ '/') = name.toList.reverse := by
    rw [List.takeWhile_append_of_pos hnoSlash]
    rcases h.head?_front_reverse with hnil | hhead
    · simp [hnil]
    · obtain ⟨rest, hrest⟩ := List.head?_eq_some_iff.mp hhead
      simp [hrest]
  rw [Path.fileName?, h.reversedTail, htake]
  simp [h.part.ne_empty, h.part.ne_here, h.part.ne_up]

/-- The names of the path are those of the front, the name and single dots. -/
theorem names (h : p.EndsIn front name) :
    ∃ dots, p.names = namesOf front ++ name :: dots ∧ ∀ dot ∈ dots, dot = "." := by
  obtain ⟨idle, hidle, htext⟩ := h.text
  obtain ⟨dots, hnames, hdots⟩ := namesOf_idle hidle (front ++ name.toList)
  refine ⟨dots, ?_, hdots⟩
  rw [Path.names, htext, hnames, namesOf_front_append h.ends, namesOf_name h.part, List.append_assoc]
  rfl

theorem isAbsolute (h : p.EndsIn front name) :
    p.isAbsolute = (Path.mk (String.ofList front)).isAbsolute := by
  obtain ⟨idle, -, htext⟩ := h.text
  have hname : name.toList ≠ [] := by simpa using h.part.ne_empty
  rw [List.append_assoc] at htext
  refine isAbsolute_front_append htext fun hhead => h.part.noSlash ?_
  rw [List.head?_append_of_ne_nil _ hname] at hhead
  exact List.mem_of_mem_head? hhead

/-- The path leads to the name below where its front leads. -/
theorem destination (h : p.EndsIn front name) (wd : Location) :
    p.destination wd = (Path.mk (String.ofList front)).destination wd ++ [name] := by
  obtain ⟨dots, hnames, hdots⟩ := h.names
  rw [Path.destination, Path.destination, Path.origin, Path.origin, h.isAbsolute, hnames,
    Path.names, String.toList_ofList, FileTree.lead_append, FileTree.lead_cons, lead_dots hdots,
    h.part.follow]

/-- The directory above the path has none but names of the front. -/
theorem names_parent (h : p.EndsIn front name) (hq : p.parent? = some q) :
    q.text = "" ∨ q.names <+: namesOf front ∧
      q.isAbsolute = (Path.mk (String.ofList front)).isAbsolute := by
  have hnoSlash : ∀ c ∈ name.toList.reverse, decide (c ≠ '/') = true := fun c hc => by
    simpa using fun heq : c = '/' => h.part.noSlash (heq ▸ List.mem_reverse.mp hc)
  have hdrop : p.reversedTail.dropWhile (· ≠ '/') = front.reverse := by
    rw [h.reversedTail, List.dropWhile_append_of_pos hnoSlash]
    rcases h.head?_front_reverse with hnil | hhead
    · simp [hnil]
    · obtain ⟨rest, hrest⟩ := List.head?_eq_some_iff.mp hhead
      simp [hrest]
  have htext : q.text.toList = (trimTail front.reverse).reverse := by
    rw [parent?] at hq
    split at hq
    · cases hq
    · cases hq
    · rw [← Option.some.inj hq, hdrop, String.toList_ofList]
  have hparent := names_trimTail (p := ⟨String.ofList front⟩) [] (by simp) h.head?_front_reverse htext
  rwa [Path.names, Path.names, String.toList_ofList] at hparent

end EndsIn

section Extensions

variable {extension : String}

/-- How a name is split at its last dot. -/
theorem splitName_cases (name : String) :
    splitName name = (name, none) ∨
      ∃ stem old, stem ≠ "" ∧ '.' ∉ old.toList ∧ name = stem ++ "." ++ old ∧
        splitName name = (stem, some old) := by
  have hsplit := List.takeWhile_append_dropWhile (p := (· ≠ '.')) (l := name.toList.reverse)
  have hafter : '.' ∉ name.toList.reverse.takeWhile (· ≠ '.') := fun hdot => by
    simpa using List.all_eq_true.mp List.all_takeWhile _ hdot
  rw [splitName]
  generalize name.toList.reverse.takeWhile (· ≠ '.') = after at hsplit hafter
  generalize hbehind : name.toList.reverse.dropWhile (· ≠ '.') = behind at hsplit
  have hdrop : name.toList.reverse.drop after.length = behind := by
    rw [← hsplit, List.drop_left]
  rw [hdrop]
  split
  · exact Or.inl rfl
  · exact Or.inl rfl
  · next c before hne =>
    have hc : c = '.' := by
      have hnot := List.head?_dropWhile_not (· ≠ '.') name.toList.reverse
      rw [hbehind] at hnot
      simpa using hnot
    subst hc
    refine Or.inr ⟨String.ofList before.reverse, String.ofList after.reverse, ?_, ?_, ?_, rfl⟩
    · intro hnil
      have hbefore : before = [] := by simpa using congrArg String.toList hnil
      exact hne rfl hbefore
    · simpa using hafter
    · apply String.toList_inj.mp
      have hreverse := congrArg List.reverse hsplit
      rw [List.reverse_reverse] at hreverse
      rw [← hreverse]
      simp

/-- The stem of a part, with another extension, is a part again. -/
theorem isPart_extended (h : IsPart name) (hext : extension ≠ "") (hslash : '/' ∉ extension.toList) :
    IsPart ((splitName name).1 ++ "." ++ extension) := by
  obtain ⟨hstem, hnoSlash⟩ : (splitName name).1 ≠ "" ∧ '/' ∉ (splitName name).1.toList := by
    rcases splitName_cases name with hsplit | ⟨stem, old, hstem, -, hname, hsplit⟩
    · rw [hsplit]
      exact ⟨h.ne_empty, h.noSlash⟩
    · have hnoSlash := h.noSlash
      rw [hname, String.append_assoc, String.toList_append, List.mem_append, not_or] at hnoSlash
      rw [hsplit]
      exact ⟨hstem, hnoSlash.1⟩
  have hlengths := List.length_pos_iff.mpr (show (splitName name).1.toList ≠ [] by simpa using hstem)
  have hlengths' := List.length_pos_iff.mpr (show extension.toList ≠ [] by simpa using hext)
  have hlong : ((splitName name).1 ++ "." ++ extension).toList.length > 2 := by
    simp only [String.toList_append, List.length_append]
    simp only [String.length_toList] at hlengths hlengths' ⊢
    have hdot : ".".length = 1 := rfl
    omega
  refine ⟨fun heq => ?_, fun heq => ?_, fun heq => ?_, by simp [hnoSlash, hslash]⟩
  all_goals
    rw [heq] at hlong
    revert hlong
    decide

/-- What follows the stem of the name is replaced, and nothing is left behind the name. -/
theorem EndsIn.replaceAfterStem (h : p.EndsIn front name) (hext : extension ≠ "")
    (hslash : '/' ∉ extension.toList) :
    (p.replaceAfterStem extension).EndsIn front ((splitName name).1 ++ "." ++ extension) := by
  have hstem : ∃ more, name = (splitName name).1 ++ more := by
    rcases splitName_cases name with hsplit | ⟨stem, old, -, -, hname, hsplit⟩
    · exact ⟨"", by simp [hsplit]⟩
    · exact ⟨"." ++ old, by rw [hsplit, ← String.append_assoc]; exact hname⟩
  obtain ⟨more, hmore⟩ := hstem
  rw [Path.replaceAfterStem, h.fileName?]
  simp only [if_neg hext]
  have hlength : name.length - (splitName name).1.length = more.toList.reverse.length := by
    have hsum := congrArg String.length hmore
    rw [String.length_append] at hsum
    rw [List.length_reverse, String.length_toList]
    omega
  have hkept : p.reversedTail.drop (name.length - (splitName name).1.length) =
      (splitName name).1.toList.reverse ++ front.reverse := by
    have hreverse : name.toList.reverse = more.toList.reverse ++ (splitName name).1.toList.reverse := by
      conv_lhs => rw [hmore]
      simp
    rw [h.reversedTail, hlength, hreverse, List.append_assoc, List.drop_left]
  rw [hkept]
  refine ⟨h.ends, isPart_extended h.part hext hslash, [], .nil, ?_⟩
  simp

theorem Idle.drop (h : Idle idle) (n : Nat) : Idle (idle.drop n) := by
  induction n generalizing idle with
  | zero => exact h
  | succ n ih =>
      cases h with
      | nil => exact .nil
      | slash hrest => exact ih hrest
      | dot hrest => exact ih hrest.slash

/-- A path that ends in two dots has no name. -/
theorem replaceAfterStem_up (hends : front = [] ∨ front.getLast? = some '/')
    (htext : p.text.toList = front ++ ['.', '.']) : p.replaceAfterStem extension = p := by
  have htail : p.reversedTail = '.' :: '.' :: front.reverse := by
    rw [reversedTail, htext, List.reverse_append]
    exact trimTail.eq_4 _ (by simp) (by simp) (by simp)
  have htake : p.reversedTail.takeWhile (· ≠ '/') = ['.', '.'] := by
    rw [htail]
    rcases hends with rfl | hlast
    · rfl
    · obtain ⟨before, rfl⟩ := List.getLast?_eq_some_iff.mp hlast
      simp
  have hnone : p.fileName? = none := by
    rw [fileName?, htake]
    rfl
  rw [replaceAfterStem, hnone]

/-- What is left of a text when as many characters as the extension has go away from its end: first of all
those behind the name go. -/
theorem take_of_cut (before old idle : List Char) :
    (before ++ old ++ idle.reverse).take ((before ++ old ++ idle.reverse).length - old.length) =
      before ++ old.take idle.length ++ (idle.drop old.length).reverse := by
  have hlength : (before ++ old ++ idle.reverse).length - old.length = before.length + idle.length := by
    simp only [List.length_append, List.length_reverse]
    omega
  rw [hlength, List.append_assoc, List.take_length_add_append, List.take_append, List.reverse_drop,
    List.append_assoc]

section Cut

variable {stem old x : String}

/-- A stem with what is left of an extension is a part, unless it is two dots. -/
theorem isPart_cut (hstem : stem ≠ "") (hslash : '/' ∉ (stem ++ "." ++ x).toList)
    (hup : stem ++ "." ++ x ≠ "..") : IsPart (stem ++ "." ++ x) := by
  have hpos := List.length_pos_iff.mpr (show stem.toList ≠ [] by simpa using hstem)
  refine ⟨fun hnil => ?_, fun hhere => ?_, hup, hslash⟩
  · simpa using congrArg String.toList hnil
  · have hlengths := congrArg List.length (congrArg String.toList hhere)
    have hdot : ".".toList.length = 1 := rfl
    simp only [String.toList_append, List.length_append] at hlengths
    omega

/-- Two dots are left only when all of an extension is cut off and nothing was behind it. -/
theorem idle_eq_nil_of_cut (hpart : IsPart (stem ++ "." ++ old)) (hstem : stem ≠ "")
    (hup : stem ++ "." ++ String.ofList (old.toList.take idle.length) = "..") : idle = [] := by
  have hpos := List.length_pos_iff.mpr (show stem.toList ≠ [] by simpa using hstem)
  have hlengths := congrArg List.length (congrArg String.toList hup)
  have hdot : ".".toList.length = 1 := rfl
  have hdots : "..".toList.length = 2 := rfl
  simp only [String.toList_append, List.length_append, String.toList_ofList, List.length_take] at hlengths
  by_contra hidle
  have hsome := List.length_pos_iff.mpr hidle
  have hold : old = "" := by
    have hnone : old.toList.length = 0 := by omega
    simpa using hnone
  rw [hold] at hup hpart
  exact hpart.ne_up (by simpa using hup)

end Cut

/-- Another extension changes the name behind its front, or there is no name left to change. -/
theorem EndsIn.withExtension (h : p.EndsIn front name) (hext : extension ≠ "")
    (hslash : '/' ∉ extension.toList) :
    (p.withExtension extension).EndsIn front ((splitName name).1 ++ "." ++ extension) ∨
      (p.withExtension extension).text.toList = front ++ ['.', '.'] := by
  obtain ⟨idle, hidle, htext⟩ := h.text
  rw [Path.withExtension, extension?, h.fileName?, Option.bind_some]
  rcases splitName_cases name with hsplit | ⟨stem, old, hstem, hold, hname, hsplit⟩
  · have hall : Path.mk (String.ofList (p.text.toList.take (p.text.length - 0))) = p := by
      rw [Nat.sub_zero, ← String.length_toList, List.take_length, String.ofList_toList]
    left
    rw [hsplit]
    simp only [Option.map_none, Option.getD_none, hall]
    have hend := h.replaceAfterStem hext hslash
    rwa [hsplit] at hend
  rw [hsplit]
  simp only [Option.map_some, Option.getD_some]
  generalize hcut : Path.mk (String.ofList (p.text.toList.take (p.text.length - old.length))) = cut
  generalize hx : String.ofList (old.toList.take idle.length) = x
  have hcutText : cut.text.toList = front ++ (stem ++ "." ++ x).toList ++ (idle.drop old.length).reverse := by
    have htake := take_of_cut (front ++ (stem ++ ".").toList) old.toList idle
    rw [List.append_assoc front, ← String.toList_append, ← hname, ← htext, String.length_toList,
      String.length_toList] at htake
    rw [← hcut, String.toList_ofList, htake, ← hx]
    simp
  have hkept : ∀ c ∈ x.toList, c ∈ old.toList := by
    rw [← hx, String.toList_ofList]
    exact fun c hc => List.mem_of_mem_take hc
  by_cases hup : stem ++ "." ++ x = ".."
  · right
    rw [← hx] at hup
    have hnothing := idle_eq_nil_of_cut (hname ▸ h.part) hstem hup
    rw [← hx, hup, hnothing, List.drop_nil, List.reverse_nil, List.append_nil] at hcutText
    rw [replaceAfterStem_up h.ends hcutText, hcutText]
    rfl
  · left
    have hnoSlash := h.part.noSlash
    rw [hname] at hnoSlash
    simp only [String.toList_append, List.mem_append, not_or] at hnoSlash
    have hpart := isPart_cut hstem (by
      simp only [String.toList_append, List.mem_append, not_or]
      exact ⟨hnoSlash.1, fun hslash => hnoSlash.2 (hkept _ hslash)⟩) hup
    have hend : cut.EndsIn front (stem ++ "." ++ x) :=
      ⟨h.ends, hpart, _, hidle.drop old.length, hcutText⟩
    have hagain := hend.replaceAfterStem hext hslash
    rwa [splitName_append hstem fun hdot => hold (hkept _ hdot)] at hagain

end Extensions

end Path

end Automation
