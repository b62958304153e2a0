import Automation.Proofs.Json.Leaves
import Automation.Proofs.Toml.Quoted
import Automation.Toml.Reader
import Automation.Toml.Writer
import Mathlib.Data.List.Forall2

/-
Settings, written and read back.

What is written for a setting is read as its value, each line of settings is read as one statement, and so
the statements of a text that is written are the settings and the headers of its sections in their order.
-/

namespace Automation

namespace Toml

variable {c q : Char} {cs rest : List Char} {fuel depth : Nat}

/-- The value of a setting, when it is read. -/
def Setting.value : Setting → Value
  | .text s => .text s
  | .number n => .integer n
  | .texts ss => .list (ss.map .text)

section Space

/-- Nothing is skipped in front of what is no space. -/
theorem skipSpace_cons (h : isBlank c = false ∧ c ≠ '#' ∧ c ≠ '\n' ∧ c ≠ '\r') :
    skipSpace false (c :: cs) = some (c :: cs) := by
  obtain ⟨hblank, hcomment, hfeed, hreturn⟩ := h
  rw [skipSpace.eq_def]
  split <;> simp_all

theorem exists_head_write (style : Style) (cs : List Char) :
    ∃ q more, style.write cs = q :: more ∧ (q = '\"' ∨ q = '\'') := by
  cases style <;> exact ⟨_, _, rfl, by decide⟩

/-- Nothing is skipped in front of a text in quotes. -/
theorem skipSpace_quote (s : String) : skipSpace false (quote s ++ rest) = some (quote s ++ rest) := by
  obtain ⟨q, more, hquote, hq⟩ := exists_head_write (Style.ofText s.toList) s.toList
  rw [quote, hquote]
  rcases hq with rfl | rfl
  · exact skipSpace_cons (by decide)
  · exact skipSpace_cons (by decide)

end Space

section Texts

theorem value?_quote (s : String) (hrest : EndsText rest) :
    value? (fuel + 1) depth (quote s ++ rest) = some (.text s, rest) := by
  have hread := quoted?_quote s hrest
  obtain ⟨q, more, hquote, hq⟩ := exists_head_write (Style.ofText s.toList) s.toList
  rw [← quote] at hquote
  rw [hquote, List.cons_append] at hread ⊢
  rcases hq with rfl | rfl
  · simp [value?, hread]
  · simp [value?, hread]

/-- What is read of a list when a text comes first: it, and then more of them or the end. -/
theorem items?_text (s : String) {after : List Char} (hafter : EndsText after)
    (hskip : skipSpace false cs = some (quote s ++ after)) :
    items? (fuel + 2) depth cs = (skipSpace false after).bind fun left =>
      match left with
      | ',' :: rest =>
          (items? (fuel + 1) depth rest).map fun (more, rest) => (.text s :: more, rest)
      | ']' :: rest => some ([.text s], rest)
      | _ => none := by
  obtain ⟨q, more, hquote, hq⟩ := exists_head_write (Style.ofText s.toList) s.toList
  rw [← quote] at hquote
  have hread : value? (fuel + 1) depth (quote s ++ after) = some (.text s, after) :=
    value?_quote s hafter
  rw [hquote, List.cons_append] at hskip hread
  rw [items?, hskip]
  rcases hq with rfl | rfl
  · change (value? (fuel + 1) depth _).bind _ = _
    rw [hread]
    rfl
  · change (value? (fuel + 1) depth _).bind _ = _
    rw [hread]
    rfl

/-- Texts on lines of their own are read up to the closing bracket. -/
theorem items?_itemLines (ss : List String) (hfuel : ss.length < fuel) :
    items? fuel depth ('\n' :: (ss.flatMap itemLine ++ ']' :: rest)) =
      some (ss.map .text, rest) := by
  induction ss generalizing fuel with
  | nil =>
      obtain ⟨fuel, rfl⟩ := Nat.exists_eq_succ_of_ne_zero (Nat.ne_zero_of_lt hfuel)
      rfl
  | cons s more ih =>
      obtain ⟨fuel, rfl⟩ : ∃ n, fuel = n + 2 := ⟨fuel - 2, by simp at hfuel; omega⟩
      have hmore : items? (fuel + 1) depth ('\n' :: (more.flatMap itemLine ++ ']' :: rest)) =
          some (more.map .text, rest) := ih (by simp at hfuel; omega)
      have hskip : skipSpace false ('\n' :: ((s :: more).flatMap itemLine ++ ']' :: rest)) =
          some (quote s ++ ',' :: '\n' :: (more.flatMap itemLine ++ ']' :: rest)) := by
        have htext : (s :: more).flatMap itemLine ++ ']' :: rest = ' ' :: ' ' :: ' ' :: ' ' ::
            (quote s ++ ',' :: '\n' :: (more.flatMap itemLine ++ ']' :: rest)) := by
          simp [itemLine]
        rw [htext]
        exact skipSpace_quote s
      rw [items?_text s (endsText_cons (by decide)) hskip, skipSpace_cons (by decide),
        Option.bind_some]
      change (items? (fuel + 1) depth _).map _ = _
      rw [hmore]
      rfl

/-- A list of texts is read up to its closing bracket, however many there are. -/
theorem value?_texts (ss : List String) (hfuel : ss.length + 2 < fuel) :
    value? fuel (depth + 1) (writeTexts ss ++ rest) = some (.list (ss.map .text), rest) := by
  obtain ⟨fuel, rfl⟩ : ∃ n, fuel = n + 3 := ⟨fuel - 3, by omega⟩
  have hlist : ∀ cs, items? (fuel + 2) depth cs = some (ss.map .text, rest) →
      value? (fuel + 3) (depth + 1) ('[' :: cs) = some (.list (ss.map .text), rest) := by
    intro cs hitems
    rw [value?, if_neg (Nat.succ_ne_zero depth), Nat.add_sub_cancel, hitems]
    rfl
  match ss with
  | [] => exact hlist _ rfl
  | [s] =>
      have hitems : items? (fuel + 2) depth (quote s ++ ']' :: rest) = some ([.text s], rest) := by
        rw [items?_text s (endsText_cons (by decide)) (skipSpace_quote s),
          skipSpace_cons (by decide)]
        rfl
      have hone := hlist _ hitems
      simpa [writeTexts] using hone
  | s :: other :: more =>
      have hmany := hlist _ (items?_itemLines (s :: other :: more) (by simp at hfuel ⊢; omega))
      simpa [writeTexts] using hmany

end Texts

section Numbers

variable {n : Nat}

theorem digits?_digits (h : ∀ c ∈ cs, c.isDigit = true) (hne : cs ≠ []) :
    digits? Char.isDigit cs = some cs := by
  induction cs with
  | nil => exact absurd rfl hne
  | cons c rest ih =>
      obtain ⟨hc, hrest⟩ := List.forall_mem_cons.mp h
      cases rest with
      | nil => rw [digits?, if_pos hc]
      | cons d more =>
          have hd : d ≠ '_' := by
            rintro rfl
            exact absurd (hrest '_' List.mem_cons_self) (by decide)
          rw [digits?.eq_4 _ c (d :: more) (by simp) (by simp [hd]), if_pos hc,
            ih hrest (List.cons_ne_nil d more)]
          rfl

theorem hexValue?_digit (h : c.isDigit = true) : Document.hexValue? c = some (c.toNat - '0'.toNat) := by
  have hrange : '0' ≤ c ∧ c ≤ '9' := by simpa [Char.isDigit, Char.le_def] using h
  rw [Document.hexValue?, if_pos hrange]

theorem foldl_digits (h : ∀ c ∈ cs, c.isDigit = true) (m : Nat) :
    cs.foldl (fun n d => n * 10 + (Document.hexValue? d).getD 0) m = Nat.ofDigitChars 10 cs m := by
  induction cs generalizing m with
  | nil => rfl
  | cons c rest ih =>
      obtain ⟨hc, hrest⟩ := List.forall_mem_cons.mp h
      rw [List.foldl_cons, Nat.ofDigitChars_cons, hexValue?_digit hc, Option.getD_some,
        Nat.mul_comm m 10]
      exact ih hrest _

theorem numberOf_digits (h : ∀ c ∈ cs, c.isDigit = true) :
    numberOf 10 cs = Nat.ofDigitChars 10 cs 0 :=
  foldl_digits h 0

/-- The digits of a number: the first of them is no zero unless it is the only one. -/
theorem whole?_digits (n : Nat) : whole? (Nat.toDigits 10 n) = some (Nat.toDigits 10 n) := by
  have hdigits : digits? Char.isDigit (Nat.toDigits 10 n) = some (Nat.toDigits 10 n) :=
    digits?_digits (fun c hc => isDigit_of_mem_digits hc) Nat.toDigits_ne_nil
  rw [whole?, hdigits]
  split
  · next d more hzero =>
    have hhead : (Nat.toDigits 10 n).head? = some '0' := by
      rw [Option.some.inj hzero]
      rfl
    by_cases hn : n = 0
    · subst hn
      simp at hzero
    · exact absurd hhead (head?_digits hn)
  · rfl

/-- A number starts with a digit, and with no letter after a zero. -/
theorem exists_cons_digits (n : Nat) : ∃ c more, Nat.toDigits 10 n = c :: more ∧ c.isDigit = true := by
  cases hdigits : Nat.toDigits 10 n with
  | nil => exact absurd hdigits Nat.toDigits_ne_nil
  | cons c more => exact ⟨c, more, rfl, isDigit_of_mem_digits (n := n) (by simp [hdigits])⟩

theorem integer?_digits (h : (n : Int) < integerLimit) :
    integer? (Nat.toDigits 10 n) = some (n : Int) := by
  have hdigit : ∀ c ∈ Nat.toDigits 10 n, c.isDigit = true := fun c => isDigit_of_mem_digits
  have hsecond : ∀ d rest, Nat.toDigits 10 n = '0' :: d :: rest → d.isDigit = true :=
    fun d rest heq => hdigit d (by simp [heq])
  have hsign : splitSign (Nat.toDigits 10 n) = (false, Nat.toDigits 10 n) := by
    apply splitSign.eq_3
    · exact fun rest heq => absurd (hdigit '-' (by simp [heq])) (by decide)
    · exact fun rest heq => absurd (hdigit '+' (by simp [heq])) (by decide)
  rw [integer?.eq_4 _ (fun rest heq => absurd (hsecond _ rest heq) (by decide))
    (fun rest heq => absurd (hsecond _ rest heq) (by decide))
    (fun rest heq => absurd (hsecond _ rest heq) (by decide)), hsign]
  dsimp only
  rw [whole?_digits, Option.bind_some, if_neg Bool.false_ne_true, numberOf_digits hdigit,
    Nat.ofDigitChars_ten_toDigits, inRange, if_pos ⟨by rw [leastInteger]; omega, h⟩]

theorem splitAtom_digits (n : Nat) : splitAtom (Nat.toDigits 10 n ++ '\n' :: rest) =
    (Nat.toDigits 10 n, '\n' :: rest) := by
  have hatomic : ∀ c ∈ Nat.toDigits 10 n, isAtomic c = true := by
    intro c hc
    simp [isAtomic, Char.isAlphanum, isDigit_of_mem_digits hc]
  have hfeed : isAtomic '\n' = false := by decide
  rw [splitAtom, List.takeWhile_append_of_pos hatomic, List.dropWhile_append_of_pos hatomic,
    List.takeWhile_cons, List.dropWhile_cons, hfeed, if_neg Bool.false_ne_true,
    if_neg Bool.false_ne_true, List.append_nil]
  rfl

theorem atom?_digits (h : (n : Int) < integerLimit) :
    atom? (Nat.toDigits 10 n) = some (.integer n) := by
  obtain ⟨c, more, hdigits, hc⟩ := exists_cons_digits n
  have htrue : Nat.toDigits 10 n ≠ ['t', 'r', 'u', 'e'] := by
    rw [hdigits]
    rintro ⟨⟩
    exact absurd hc (by decide)
  have hfalse : Nat.toDigits 10 n ≠ ['f', 'a', 'l', 's', 'e'] := by
    rw [hdigits]
    rintro ⟨⟩
    exact absurd hc (by decide)
  rw [atom?, if_neg htrue, if_neg hfalse, integer?_digits h]

theorem value?_number (h : (n : Int) < integerLimit) :
    value? (fuel + 1) depth (Nat.toDigits 10 n ++ '\n' :: rest) =
      some (.integer n, '\n' :: rest) := by
  obtain ⟨c, more, hdigits, hc⟩ := exists_cons_digits n
  have hne : ∀ d, d.isDigit = false → ∀ tail, Nat.toDigits 10 n ++ '\n' :: rest ≠ d :: tail := by
    intro d hd tail heq
    rw [hdigits] at heq
    rw [(List.cons.inj heq).1, hd] at hc
    cases hc
  rw [value?.eq_6 _ _ _ (hne _ (by decide)) (hne _ (by decide)) (hne _ (by decide))
    (hne _ (by decide)), splitAtom_digits]
  dsimp only
  rw [atom?_digits h]
  rfl

end Numbers

section Lines

variable {name : String} {setting : Setting} {statement : Statement}

/-- A number that is an integer of TOML. -/
def Setting.Fits : Setting → Prop
  | number n => (n : Int) < integerLimit
  | _ => True

/-- A name that needs no quotes. -/
def IsBareName (name : String) : Prop :=
  name.toList ≠ [] ∧ ∀ c ∈ name.toList, isBare c = true

instance (name : String) : Decidable (IsBareName name) :=
  decidable_of_iff (name.toList ≠ [] ∧ name.toList.all isBare = true) (by
    rw [IsBareName, List.all_eq_true])

theorem length_le_writeTexts (ss : List String) : ss.length + 2 ≤ (writeTexts ss).length := by
  have hitems : ∀ ss : List String, ss.length ≤ (ss.flatMap itemLine).length := by
    intro ss
    induction ss with
    | nil => exact Nat.le_refl 0
    | cons s more ih =>
        simp only [List.flatMap_cons, List.length_append, List.length_cons, itemLine]
        omega
  match ss with
  | [] => exact Nat.le_refl 2
  | [s] =>
      obtain ⟨q, more, hquote, -⟩ := exists_head_write (Style.ofText s.toList) s.toList
      rw [← quote] at hquote
      simp [writeTexts, hquote]
  | s :: other :: more =>
      have hmany := hitems (s :: other :: more)
      simp only [writeTexts, List.length_cons, List.length_append] at hmany ⊢
      omega

/-- What is written for a setting is read as its value. -/
theorem value?_setting (h : setting.Fits) (hfuel : setting.write.length < fuel) :
    value? fuel (depth + 1) (setting.write ++ '\n' :: rest) =
      some (setting.value, '\n' :: rest) := by
  cases setting with
  | text s =>
      obtain ⟨fuel, rfl⟩ := Nat.exists_eq_succ_of_ne_zero (Nat.ne_zero_of_lt hfuel)
      exact value?_quote s (endsText_cons (by decide))
  | number n =>
      obtain ⟨fuel, rfl⟩ := Nat.exists_eq_succ_of_ne_zero (Nat.ne_zero_of_lt hfuel)
      exact value?_number h
  | texts ss => exact value?_texts ss (Nat.lt_of_le_of_lt (length_le_writeTexts ss) hfuel)

/-- There is no space in front of a value. -/
theorem dropWhile_isBlank_write (setting : Setting) (rest : List Char) :
    (setting.write ++ rest).dropWhile isBlank = setting.write ++ rest := by
  have hhead : ∃ c more, setting.write = c :: more ∧ isBlank c = false := by
    cases setting with
    | text s =>
        obtain ⟨q, more, hquote, hq⟩ := exists_head_write (Style.ofText s.toList) s.toList
        exact ⟨q, more, hquote, by rcases hq with rfl | rfl <;> decide⟩
    | number n =>
        obtain ⟨c, more, hdigits, hc⟩ := exists_cons_digits n
        refine ⟨c, more, hdigits, ?_⟩
        rw [isBlank, Bool.or_eq_false_iff, beq_eq_false_iff_ne, beq_eq_false_iff_ne]
        constructor
        · rintro rfl
          exact absurd hc (by decide)
        · rintro rfl
          exact absurd hc (by decide)
    | texts ss =>
        match ss with
        | [] => exact ⟨_, _, rfl, by decide⟩
        | [s] => exact ⟨_, _, rfl, by decide⟩
        | s :: other :: more => exact ⟨_, _, rfl, by decide⟩
  obtain ⟨c, more, hwrite, hblank⟩ := hhead
  rw [hwrite, List.cons_append, List.dropWhile_cons, if_neg (by simp [hblank])]

theorem ne_of_isBare {d : Char} (h : isBare c = true) (hd : isBare d = false) : c ≠ d := by
  rintro rfl
  exact Bool.false_ne_true (hd.symm.trans h)

theorem IsBareName.exists_cons (h : IsBareName name) :
    ∃ c more, name.toList = c :: more ∧ isBare c = true := by
  obtain ⟨hne, hbare⟩ := h
  cases hname : name.toList with
  | nil => exact absurd hname hne
  | cons c more => exact ⟨c, more, rfl, hbare c (by simp [hname])⟩

/-- A name without quotes is read up to what cannot be a part of it. -/
theorem name?_bare (h : IsBareName name) (hc : isBare c = false) :
    name? (name.toList ++ c :: rest) = some (name, c :: rest) := by
  obtain ⟨first, more, hname, hfirst⟩ := h.exists_cons
  have hne : ∀ d, isBare d = false → ∀ tail, name.toList ++ c :: rest ≠ d :: tail := by
    intro d hd tail heq
    rw [hname] at heq
    exact ne_of_isBare hfirst hd (List.cons.inj heq).1
  rw [name?.eq_3 _ (hne _ (by decide)) (hne _ (by decide)),
    List.takeWhile_append_of_pos h.2, List.dropWhile_append_of_pos h.2, List.takeWhile_cons,
    List.dropWhile_cons, hc, if_neg Bool.false_ne_true, if_neg Bool.false_ne_true, List.append_nil,
    if_neg (by simpa using h.1), String.ofList_toList]

/-- A single name is read with the space behind it. -/
theorem path?_bare (h : IsBareName name) (hc : isBare c = false)
    (hdot : ((c :: rest).dropWhile isBlank).head? ≠ some '.') :
    path? (fuel + 1) (name.toList ++ c :: rest) = some ([], name, (c :: rest).dropWhile isBlank) := by
  obtain ⟨first, more, hname, hfirst⟩ := h.exists_cons
  have hstart : (name.toList ++ c :: rest).dropWhile isBlank = name.toList ++ c :: rest := by
    have hblank : isBlank first = false := by
      rw [isBlank, Bool.or_eq_false_iff, beq_eq_false_iff_ne, beq_eq_false_iff_ne]
      exact ⟨ne_of_isBare hfirst (by decide), ne_of_isBare hfirst (by decide)⟩
    rw [hname, List.cons_append, List.dropWhile_cons, if_neg (by simp [hblank])]
  rw [path?, hstart, name?_bare h hc]
  simp only [Option.bind_eq_bind, Option.bind_some]
  split
  · next heq => exact absurd (by rw [heq]; rfl) hdot
  · rfl

/-- What is written for a setting with its name. -/
def settingLine (name : String) (setting : Setting) : List Char :=
  name.toList ++ [' ', '=', ' '] ++ setting.write ++ ['\n']

theorem statement?_settingLine (hname : IsBareName name) (hsetting : setting.Fits)
    (hfuel : (settingLine name setting).length < fuel) :
    statement? fuel (settingLine name setting ++ rest) =
      some (.item [] name setting.value, rest) := by
  obtain ⟨fuel, rfl⟩ := Nat.exists_eq_succ_of_ne_zero (Nat.ne_zero_of_lt hfuel)
  obtain ⟨first, more, hcons, hfirst⟩ := hname.exists_cons
  have htext : settingLine name setting ++ rest =
      name.toList ++ ' ' :: '=' :: ' ' :: (setting.write ++ '\n' :: rest) := by
    simp [settingLine]
  have hbracket : ∀ tail, name.toList ++ ' ' :: '=' :: ' ' :: (setting.write ++ '\n' :: rest) ≠
      '[' :: tail := by
    intro tail heq
    rw [hcons] at heq
    exact ne_of_isBare hfirst (by decide) (List.cons.inj heq).1
  have hspace : (' ' :: (setting.write ++ '\n' :: rest)).dropWhile isBlank =
      setting.write ++ '\n' :: rest := by
    rw [List.dropWhile_cons, if_pos (by decide), dropWhile_isBlank_write]
  have hvalue : value? (fuel + 1) maxDepth (setting.write ++ '\n' :: rest) =
      some (setting.value, '\n' :: rest) := by
    apply value?_setting hsetting
    simp only [settingLine, List.length_append] at hfuel
    omega
  rw [htext, statement?.eq_3 _ _ (fun tail => hbracket _) hbracket,
    path?_bare hname (by decide) (by simp [isBlank])]
  change (value? (fuel + 1) maxDepth ((' ' :: (setting.write ++ '\n' :: rest)).dropWhile
    isBlank)).bind _ = _
  rw [hspace, hvalue]
  rfl

/-- What is written for the header of a section. -/
def headerLine (name : String) : List Char := '[' :: name.toList ++ [']', '\n']

theorem statement?_headerLine (hname : IsBareName name) :
    statement? (fuel + 1) (headerLine name ++ rest) = some (.header [] name, rest) := by
  obtain ⟨first, more, hcons, hfirst⟩ := hname.exists_cons
  have htext : headerLine name ++ rest = '[' :: (name.toList ++ ']' :: '\n' :: rest) := by
    simp [headerLine]
  have hbracket : ∀ tail, name.toList ++ ']' :: '\n' :: rest ≠ '[' :: tail := by
    intro tail heq
    rw [hcons] at heq
    exact ne_of_isBare hfirst (by decide) (List.cons.inj heq).1
  rw [htext, statement?.eq_2 _ _ hbracket, path?_bare hname (by decide) (by simp [isBlank])]
  rfl

/-- Some lines say a statement, in front of whatever there is. -/
def Says (line : List Char) (statement : Statement) : Prop :=
  ∀ rest, ∃ body, skipSpace false (line ++ rest) = some (body ++ rest) ∧ body ≠ [] ∧
    ∀ fuel, body.length < fuel → statement? fuel (body ++ rest) = some (statement, rest)

theorem skipSpace_bare (hname : IsBareName name) :
    skipSpace false (name.toList ++ rest) = some (name.toList ++ rest) := by
  obtain ⟨first, more, hcons, hfirst⟩ := hname.exists_cons
  rw [hcons]
  apply skipSpace_cons
  rw [isBlank, Bool.or_eq_false_iff, beq_eq_false_iff_ne, beq_eq_false_iff_ne]
  exact ⟨⟨ne_of_isBare hfirst (by decide), ne_of_isBare hfirst (by decide)⟩,
    ne_of_isBare hfirst (by decide), ne_of_isBare hfirst (by decide),
    ne_of_isBare hfirst (by decide)⟩

theorem says_settingLine (hname : IsBareName name) (hsetting : setting.Fits) :
    Says (settingLine name setting) (.item [] name setting.value) := by
  intro rest
  refine ⟨settingLine name setting, ?_, ?_, fun fuel => statement?_settingLine hname hsetting⟩
  · simp only [settingLine, List.append_assoc]
    exact skipSpace_bare hname
  · simp [settingLine]

/-- An empty line in front of a header is passed over. -/
theorem says_headerLine (hname : IsBareName name) :
    Says ('\n' :: headerLine name) (.header [] name) := by
  intro rest
  refine ⟨headerLine name, ?_, List.cons_ne_nil _ _, fun fuel hfuel => ?_⟩
  · change skipSpace false ('[' :: (name.toList ++ [']', '\n'] ++ rest)) = _
    exact skipSpace_cons (by decide)
  · obtain ⟨fuel, rfl⟩ := Nat.exists_eq_succ_of_ne_zero (Nat.ne_zero_of_lt hfuel)
    exact statement?_headerLine hname

/-- One statement is read, and then those behind it. -/
theorem Says.statements? {line : List Char} (h : Says line statement) :
    Toml.statements? (fuel + 1) (line ++ rest) =
      (Toml.statements? fuel rest).map (statement :: ·) := by
  obtain ⟨body, hskip, hne, hread⟩ := h rest
  obtain ⟨c, more, rfl⟩ := List.exists_cons_of_ne_nil hne
  rw [Toml.statements?, hskip]
  change (statement? (((c :: more) ++ rest).length + 1) ((c :: more) ++ rest)).bind _ = _
  rw [hread _ (by rw [List.length_append, List.length_cons]; omega)]
  rfl

/-- Lines that say one statement each are read as the statements. -/
theorem statements?_flatten {lines : List (List Char)} {statements : List Statement}
    (h : List.Forall₂ Says lines statements) (hfuel : lines.length < fuel) :
    statements? fuel (lines.flatten ++ ['\n']) = some statements := by
  induction h generalizing fuel with
  | nil =>
      obtain ⟨fuel, rfl⟩ := Nat.exists_eq_succ_of_ne_zero (Nat.ne_zero_of_lt hfuel)
      rfl
  | cons hline _ ih =>
      obtain ⟨fuel, rfl⟩ := Nat.exists_eq_succ_of_ne_zero (Nat.ne_zero_of_lt hfuel)
      rw [List.flatten_cons, List.append_assoc, hline.statements?,
        ih (by simpa using hfuel)]
      rfl

end Lines

section Texts

/-- The lines of some settings. -/
def Settings.lines (settings : Settings) : List (List Char) :=
  settings.map fun (name, setting) => settingLine name setting

/-- What some settings say. -/
def Settings.items (settings : Settings) : List Statement :=
  settings.map fun (name, setting) => .item [] name setting.value

/-- The settings have names that need no quotes, and numbers that are integers. -/
def Settings.Fits (settings : Settings) : Prop :=
  ∀ item ∈ settings, IsBareName item.1 ∧ item.2.Fits

theorem Settings.forall₂_says {settings : Settings} (h : settings.Fits) :
    List.Forall₂ Says settings.lines settings.items := by
  induction settings with
  | nil => exact .nil
  | cons item rest ih =>
      obtain ⟨⟨hname, hsetting⟩, hrest⟩ := List.forall_mem_cons.mp h
      exact .cons (says_settingLine hname hsetting) (ih hrest)

theorem Settings.flatten_lines (settings : Settings) : settings.lines.flatten = settings.write := by
  rw [Settings.lines, Settings.write, List.flatMap_def]
  rfl

/-- The lines of a section, with an empty one in front. -/
def sectionLines (part : String × Settings) : List (List Char) :=
  ('\n' :: headerLine part.1) :: part.2.lines

/-- What a section says. -/
def sectionItems (part : String × Settings) : List Statement :=
  .header [] part.1 :: part.2.items

variable {top : Settings} {sections : List (String × Settings)}

theorem forall₂_says_sections
    (h : ∀ part ∈ sections, IsBareName part.1 ∧ part.2.Fits) :
    List.Forall₂ Says (sections.flatMap sectionLines) (sections.flatMap sectionItems) := by
  induction sections with
  | nil => exact .nil
  | cons part rest ih =>
      obtain ⟨⟨hname, hsettings⟩, hrest⟩ := List.forall_mem_cons.mp h
      exact List.rel_append (.cons (says_headerLine hname) (Settings.forall₂_says hsettings)) (ih hrest)

theorem flatten_sectionLines (sections : List (String × Settings)) :
    (sections.flatMap sectionLines).flatten =
      sections.flatMap fun part => writeSection part.1 part.2 := by
  induction sections with
  | nil => rfl
  | cons part rest ih =>
      rw [List.flatMap_cons, List.flatten_append, ih, List.flatMap_cons, sectionLines,
        List.flatten_cons, Settings.flatten_lines]
      rfl

theorem Says.ne_nil {line : List Char} {statement : Statement} (h : Says line statement) :
    line ≠ [] := by
  rintro rfl
  obtain ⟨body, hskip, hne, -⟩ := h []
  simp [skipSpace, hne] at hskip

theorem length_le_flatten {lines : List (List Char)} {statements : List Statement}
    (h : List.Forall₂ Says lines statements) : lines.length ≤ lines.flatten.length := by
  induction h with
  | nil => exact Nat.le_refl 0
  | cons hline _ ih =>
      have hpos := List.length_pos_iff.mpr hline.ne_nil
      rw [List.length_cons, List.flatten_cons, List.length_append]
      omega

theorem withoutMark_cons (h : c ≠ '\ufeff') : withoutMark (c :: cs) = c :: cs := by
  rw [withoutMark]
  rintro rest ⟨⟩
  exact h rfl

/-- Settings that are written are read statement by statement. -/
theorem parse?_write_eq_tableOf (htop : top.Fits) (hne : top ≠ [])
    (hsections : ∀ part ∈ sections, IsBareName part.1 ∧ part.2.Fits) :
    parse? (write top sections ++ "\n") =
      tableOf (top.items ++ sections.flatMap sectionItems) := by
  have hsays : List.Forall₂ Says (top.lines ++ sections.flatMap sectionLines)
      (top.items ++ sections.flatMap sectionItems) :=
    List.rel_append (Settings.forall₂_says htop) (forall₂_says_sections hsections)
  have htext : (write top sections ++ "\n").toList =
      (top.lines ++ sections.flatMap sectionLines).flatten ++ ['\n'] := by
    rw [write, String.toList_append, String.toList_ofList, List.flatten_append,
      Settings.flatten_lines, flatten_sectionLines]
    rfl
  have hmark : withoutMark (write top sections ++ "\n").toList =
      (write top sections ++ "\n").toList := by
    obtain ⟨⟨name, setting⟩, others, rfl⟩ := List.exists_cons_of_ne_nil hne
    obtain ⟨c, more, hcons, hc⟩ := (htop _ List.mem_cons_self).1.exists_cons
    have hhead : ∃ tail, (write ((name, setting) :: others) sections ++ "\n").toList = c :: tail := by
      rw [htext]
      simp [Settings.lines, settingLine, hcons]
    obtain ⟨tail, hhead⟩ := hhead
    rw [hhead, withoutMark_cons (ne_of_isBare hc (by decide))]
  have hlength : (top.lines ++ sections.flatMap sectionLines).length <
      (write top sections ++ "\n").toList.length + 1 := by
    have hle := length_le_flatten hsays
    have hone := congrArg List.length htext
    generalize (top.lines ++ sections.flatMap sectionLines).flatten = body at hle hone
    rw [List.length_append] at hone
    omega
  rw [parse?, hmark]
  rw [htext] at hlength ⊢
  rw [statements?_flatten hsays hlength]
  rfl

end Texts

section Tables

variable {name : String} {value : Value} {known before : List (String × Value)}
  {settings top : Settings} {sections : List (String × Settings)} {statements : List Statement}
  {opened : List String}

/-- The names of some members. -/
def names (known : List (String × Value)) : List String := known.map Prod.fst

@[simp] theorem names_append (known more : List (String × Value)) :
    names (known ++ more) = names known ++ names more :=
  List.map_append

@[simp] theorem names_singleton (member : String × Value) : names [member] = [member.1] := rfl

theorem get?_of_notMem_names (h : name ∉ names known) : Table.get? name known = none := by
  rw [← List.nil_append known, Table.get?_append_of_forall_ne, Table.get?_nil]
  exact fun entry hentry heq => h (List.mem_map.mpr ⟨entry, hentry, heq⟩)

theorem put_of_notMem_names (h : name ∉ names known) :
    Table.put name value known = known ++ [(name, value)] := by
  induction known with
  | nil => rfl
  | cons member rest ih =>
      obtain ⟨hne, hrest⟩ := List.ne_and_not_mem_of_not_mem_cons h
      rw [Table.put, if_neg (Ne.symm hne), ih hrest, List.cons_append]

/-- What is done to the last member, when its name is not there before. -/
theorem get?_last (h : name ∉ names before) :
    Table.get? name (before ++ [(name, value)]) = some value := by
  rw [← put_of_notMem_names h, Table.get?_put, if_pos rfl]

theorem put_last {old : Value} (h : name ∉ names before) :
    Table.put name value (before ++ [(name, old)]) = before ++ [(name, value)] := by
  induction before with
  | nil => exact if_pos rfl
  | cons member rest ih =>
      obtain ⟨hne, hrest⟩ := List.ne_and_not_mem_of_not_mem_cons h
      rw [List.cons_append, Table.put, if_neg (Ne.symm hne), ih hrest, List.cons_append]

/-- The members of a table that some settings make. -/
def Settings.members (settings : Settings) : List (String × Value) :=
  settings.map fun (name, setting) => (name, setting.value)

/-- The member of a table that a section makes. -/
def sectionMember (part : String × Settings) : String × Value :=
  (part.1, .table .headed part.2.members)

theorem assignAt_new (h : name ∉ names known) :
    Value.assignAt [] name value (.table .headed known) =
      some (.table .headed (known ++ [(name, value)])) := by
  rw [Value.assignAt, Value.within, Value.assign, if_neg (by decide), get?_of_notMem_names h,
    put_of_notMem_names h]

/-- Settings outside sections are added to the table one after the other. -/
theorem build_items (h : (names known ++ names settings.members).Nodup) :
    build (settings.items ++ statements) [] (.table .headed known) =
      build statements [] (.table .headed (known ++ settings.members)) := by
  induction settings generalizing known with
  | nil =>
      rw [Settings.members, List.map_nil, List.append_nil]
      rfl
  | cons item rest ih =>
      have hnew : item.1 ∉ names known := fun hmem =>
        (List.nodup_append.mp h).2.2 _ hmem _ List.mem_cons_self rfl
      change build (.item [] item.1 item.2.value :: (Settings.items rest ++ statements)) [] _ = _
      rw [build, Value.within, assignAt_new hnew]
      dsimp only
      rw [ih (by simpa [names, Settings.members] using h)]
      simp [Settings.members]

/-- Settings of a section are added to the table of the section, which is the last one. -/
theorem build_sectionItems (hname : name ∉ names before)
    (h : (names known ++ names settings.members).Nodup) :
    build (settings.items ++ statements) [name]
        (.table .headed (before ++ [(name, .table .headed known)])) =
      build statements [name]
        (.table .headed (before ++ [(name, .table .headed (known ++ settings.members))])) := by
  induction settings generalizing known with
  | nil =>
      rw [Settings.members, List.map_nil, List.append_nil]
      rfl
  | cons item rest ih =>
      have hnew : item.1 ∉ names known := fun hmem =>
        (List.nodup_append.mp h).2.2 _ hmem _ List.mem_cons_self rfl
      have hwithin : Value.within false (Value.assignAt [] item.1 item.2.value) [name]
          (.table .headed (before ++ [(name, .table .headed known)])) =
          some (.table .headed (before ++
            [(name, .table .headed (known ++ [(item.1, item.2.value)]))])) := by
        rw [Value.within, get?_last hname]
        dsimp only
        rw [Value.reopen, if_neg Bool.false_ne_true, Value.within, assignAt_new hnew,
          Option.map_some, put_last hname]
      change build (.item [] item.1 item.2.value :: (Settings.items rest ++ statements)) _ _ = _
      rw [build, hwithin]
      dsimp only
      rw [ih (by simpa [names, Settings.members] using h)]
      simp [Settings.members]

/-- A section adds its table, and the next one opens another. -/
theorem build_sections (h : (names before ++ sections.map Prod.fst).Nodup)
    (hsections : ∀ part ∈ sections, (names part.2.members).Nodup) :
    build (sections.flatMap sectionItems) opened (.table .headed before) =
      some (.table .headed (before ++ sections.map sectionMember)) := by
  induction sections generalizing before opened with
  | nil =>
      rw [List.map_nil, List.append_nil]
      rfl
  | cons part rest ih =>
      obtain ⟨hpart, hrest⟩ := List.forall_mem_cons.mp hsections
      have hnew : part.1 ∉ names before := fun hmem =>
        (List.nodup_append.mp h).2.2 _ hmem _ List.mem_cons_self rfl
      change build (.header [] part.1 :: (Settings.items part.2 ++ rest.flatMap sectionItems)) _ _ = _
      rw [build, Value.within, Value.openTable, get?_of_notMem_names hnew, put_of_notMem_names hnew]
      dsimp only
      rw [List.nil_append, build_sectionItems hnew (by simpa [names] using hpart), List.nil_append,
        ih (by simpa using h) hrest]
      simp [sectionMember]

/-- Settings that are written under different names are read back, in their order, and the sections with
theirs behind them. -/
theorem parse?_write (htop : top.Fits) (hne : top ≠ [])
    (hsections : ∀ part ∈ sections, IsBareName part.1 ∧ part.2.Fits)
    (hnames : (names top.members ++ sections.map Prod.fst).Nodup)
    (hinner : ∀ part ∈ sections, (names part.2.members).Nodup) :
    parse? (write top sections ++ "\n") =
      some (.table .headed (top.members ++ sections.map sectionMember)) := by
  have htop' : (names [] ++ names top.members).Nodup := (List.nodup_append.mp hnames).1
  rw [parse?_write_eq_tableOf htop hne hsections, tableOf, build_items htop', List.nil_append,
    build_sections hnames hinner]

end Tables

end Toml

end Automation
