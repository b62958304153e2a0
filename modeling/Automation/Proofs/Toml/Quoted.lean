import Automation.Toml.Quoted
import Mathlib.Data.List.Basic

/-
Quoted texts, written and read back.

Whatever way of quoting a text is written in, it is read back up to its closing quotes, in front of anything
that is no quote itself.  In a long text some qs may belong to the text and to the closing ones side by
side; there are never more than two of the former, so the last three close it.
-/

namespace Automation

namespace Toml

variable {c e q : Char} {cs rest w : List Char} {long : Bool}

/-- What stands behind a text goes on with no quote. -/
def EndsText (rest : List Char) : Prop :=
  ∀ c, rest.head? = some c → c ≠ '\"' ∧ c ≠ '\''

theorem endsText_cons (h : c ≠ '\"' ∧ c ≠ '\'') : EndsText (c :: rest) := by
  intro d hd
  obtain rfl := Option.some.inj hd
  exact h

section Basic

/-- A character that needs no escape stands for itself. -/
theorem basic?_plain (hescape : c ≠ '\\') (hquote : c ≠ '\"') (hreturn : c ≠ '\r')
    (hcontrol : ¬(isControl c = true ∧ ¬(long = true ∧ c = '\n'))) :
    basic? long false (c :: cs) = add (some c) (basic? long false cs) := by
  rw [basic?.eq_8 long false c cs (by simp [hescape]) (by simp [hescape]) (by simp [hescape])
    (by simp [hescape]) hquote (by simp [hreturn])]
  rw [Bool.false_and, if_neg Bool.false_ne_true, if_neg (not_or.mpr ⟨hescape, hcontrol⟩)]

/-- An escape of one letter. -/
theorem basic?_short (he : e ≠ 'x' ∧ e ≠ 'u' ∧ e ≠ 'U') (hend : endsLine (e :: cs) = false) :
    basic? long false ('\\' :: e :: cs) = add (shortEscape? e) (basic? long false cs) := by
  rw [basic?.eq_5 long false e cs (by simp [he.1]) (by simp [he.2.1]) (by simp [he.2.2]), hend]
  simp

theorem endsLine_cons (hblank : isBlank c = false) (hfeed : c ≠ '\n') (hreturn : c ≠ '\r') :
    endsLine (c :: cs) = false := by
  rw [endsLine, List.dropWhile_cons_of_neg (by simp [hblank])]
  split <;> simp_all

/-- A control character is written by its number. -/
theorem numbered?_control : ∀ n < 0x80, n < 0x20 ∨ n = 0x7f →
    numbered? ['0', '0', hexDigit (n / 16), hexDigit (n % 16)] = some (Char.ofNat n) := by
  decide

/-- What is written for a character is read as the character. -/
theorem basic?_escapeChar (hquote : c ≠ '\"') :
    basic? long false (escapeChar long c ++ cs) = add (some c) (basic? long false cs) := by
  rw [escapeChar]
  split_ifs with hb ht hn hlong hf hr hescape hcontrol
  · subst hb
    exact basic?_short (by decide) (endsLine_cons (by decide) (by decide) (by decide))
  · subst ht
    exact basic?_short (by decide) (endsLine_cons (by decide) (by decide) (by decide))
  · subst hn
    exact basic?_plain (by decide) (by decide) (by decide) (by simp [hlong])
  · subst hn
    exact basic?_short (by decide) (endsLine_cons (by decide) (by decide) (by decide))
  · subst hf
    exact basic?_short (by decide) (endsLine_cons (by decide) (by decide) (by decide))
  · subst hr
    exact basic?_short (by decide) (endsLine_cons (by decide) (by decide) (by decide))
  · subst hescape
    exact basic?_short (by decide) (endsLine_cons (by decide) (by decide) (by decide))
  · have hnumber : c.toNat < 0x20 ∨ c.toNat = 0x7f := by
      simp only [isControl, Bool.and_eq_true, Bool.or_eq_true, decide_eq_true_eq, beq_iff_eq]
        at hcontrol
      exact hcontrol.1
    have hread := numbered?_control c.toNat (by omega) hnumber
    simp only [List.cons_append, List.nil_append]
    rw [basic?, hread, Char.ofNat_toNat]
  · exact basic?_plain hescape hquote hr (by simp [hcontrol])

end Basic

section Ends

/-- The quotes that close a long text are the last three. -/
theorem longEnd?_append (hrest : rest.head? ≠ some q) (htwo : ¬[q, q] <+: w) :
    longEnd? q (w ++ q :: q :: q :: rest) =
      if w = [] then some ([q], rest) else if w = [q] then some ([q, q], rest)
      else none := by
  cases w with
  | nil =>
      cases rest with
      | nil => simp [longEnd?]
      | cons d more =>
          have hd : d ≠ q := by simpa using hrest
          simp [longEnd?, hd]
  | cons c others =>
      cases others with
      | nil =>
          by_cases hc : c = q
          · simp [longEnd?, hc]
          · simp [longEnd?, hc]
      | cons d more =>
          have hboth : ¬(c = q ∧ d = q) := by
            rintro ⟨rfl, rfl⟩
            exact htwo ⟨more, rfl⟩
          simp [longEnd?, hboth]

theorem longEnd?_closing (hrest : rest.head? ≠ some q) :
    longEnd? q (q :: q :: rest) = some ([], rest) := by
  match rest with
  | [] => simp [longEnd?]
  | [c] =>
      have hc : c ≠ q := by simpa using hrest
      simp [longEnd?, hc]
  | c :: d :: more =>
      have hc : c ≠ q := by simpa using hrest
      simp [longEnd?, hc]

/-- What comes after a quote of a long text is its end, or the text goes on. -/
theorem basic?_quote (hrest : rest.head? ≠ some '\"') (htwo : ¬['\"', '\"'] <+: w)
    (hread : basic? true false (w ++ '\"' :: '\"' :: '\"' :: rest) = some (cs, rest))
    (hnil : w = [] → cs = []) (hone : w = ['\"'] → cs = ['\"']) :
    basic? true false ('\"' :: (w ++ '\"' :: '\"' :: '\"' :: rest)) = some ('\"' :: cs, rest) := by
  rw [basic?, if_pos rfl, longEnd?_append hrest htwo]
  by_cases hw : w = []
  · rw [if_pos hw, hnil hw]
  · rw [if_neg hw]
    by_cases hw' : w = ['\"']
    · rw [if_pos hw', hone hw']
    · rw [if_neg hw', hread]
      rfl

theorem literal?_quote (hrest : rest.head? ≠ some '\'') (htwo : ¬['\'', '\''] <+: w)
    (hread : literal? true (w ++ '\'' :: '\'' :: '\'' :: rest) = some (w, rest)) :
    literal? true ('\'' :: (w ++ '\'' :: '\'' :: '\'' :: rest)) = some ('\'' :: w, rest) := by
  rw [literal?, if_pos rfl, longEnd?_append hrest htwo]
  by_cases hw : w = []
  · rw [if_pos hw, hw]
  · rw [if_neg hw]
    by_cases hw' : w = ['\'']
    · rw [if_pos hw', hw']
    · rw [if_neg hw', hread]
      rfl

end Ends

section Texts

/-- The closing quotes of a text. -/
def closing (q : Char) (long : Bool) : List Char :=
  if long then [q, q, q] else [q]

/-- What a character that is no quote is written with in front. -/
theorem exists_head_escapeChar (long : Bool) (hquote : c ≠ '\"') :
    ∃ d more, escapeChar long c = d :: more ∧ d ≠ '\"' ∧ d ≠ '\r' ∧ (d = '\n' → c = '\n') := by
  rw [escapeChar]
  split_ifs
  all_goals simp_all

theorem escaped_cons_of_ne (hquote : c ≠ '\"') (n : Nat) :
    escaped long n (c :: cs) = escapeChar long c ++ escaped long 0 cs := by
  rw [escaped, if_neg hquote]

/-- A quote is escaped, but for one after at most one other in a long text. -/
theorem escaped_quote (long : Bool) (n : Nat) (cs : List Char) :
    escaped long n ('\"' :: cs) = '\\' :: '\"' :: escaped long 0 cs ∨
      long = true ∧ n ≤ 1 ∧ escaped long n ('\"' :: cs) = '\"' :: escaped long (n + 1) cs := by
  rw [escaped, if_pos rfl]
  by_cases hmany : (if long then 2 else 0) < n + 1
  · exact .inl (if_pos hmany)
  · cases long with
    | false => simp at hmany
    | true => exact .inr ⟨rfl, by simp at hmany; omega, if_neg hmany⟩

/-- After two quotes of a long text the next one is escaped. -/
theorem head?_escaped_two (cs : List Char) : (escaped true 2 cs).head? ≠ some '\"' := by
  cases cs with
  | nil => simp [escaped]
  | cons c more =>
      by_cases hc : c = '\"'
      · simp [escaped, hc]
      · obtain ⟨d, others, hd, hne, -⟩ := exists_head_escapeChar true hc
        simp [escaped_cons_of_ne hc, hd, hne]

/-- After a quote of a long text at most one more stands as it is. -/
theorem two_quotes_not_isPrefix_escaped (cs : List Char) {n : Nat} (hn : 0 < n) :
    ¬['\"', '\"'] <+: escaped true n cs := by
  rintro ⟨after, hafter⟩
  cases cs with
  | nil => simp [escaped] at hafter
  | cons c more =>
      by_cases hc : c = '\"'
      · subst hc
        rcases escaped_quote true n more with hescaped | ⟨-, hfew, hraw⟩
        · rw [hescaped] at hafter
          simp at hafter
        · obtain rfl : n = 1 := by omega
          rw [hraw] at hafter
          exact head?_escaped_two more (by rw [← (List.cons.inj hafter).2]; rfl)
      · obtain ⟨d, others, hd, hne, -⟩ := exists_head_escapeChar true hc
        rw [escaped_cons_of_ne hc, hd] at hafter
        exact hne (List.cons.inj hafter).1.symm

theorem escaped_eq_nil {n : Nat} (h : escaped long n cs = []) : cs = [] := by
  cases cs with
  | nil => rfl
  | cons c more =>
      by_cases hc : c = '\"'
      · subst hc
        rcases escaped_quote long n more with hescaped | ⟨-, -, hraw⟩
        · simp [hescaped] at h
        · simp [hraw] at h
      · obtain ⟨d, others, hd, -⟩ := exists_head_escapeChar long hc
        rw [escaped_cons_of_ne hc, hd] at h
        cases h

theorem escaped_eq_quote {n : Nat} (h : escaped long n cs = ['\"']) : cs = ['\"'] := by
  cases cs with
  | nil => simp [escaped] at h
  | cons c more =>
      by_cases hc : c = '\"'
      · subst hc
        rcases escaped_quote long n more with hescaped | ⟨-, -, hraw⟩
        · simp [hescaped] at h
        · rw [hraw] at h
          rw [escaped_eq_nil (List.cons.inj h).2]
      · obtain ⟨d, others, hd, hne, -⟩ := exists_head_escapeChar long hc
        rw [escaped_cons_of_ne hc, hd] at h
        exact absurd (List.cons.inj h).1 hne

/-- An escaped text is read up to its closing quotes. -/
theorem basic?_escaped (long : Bool) (cs : List Char) (hrest : rest.head? ≠ some '\"') (n : Nat) :
    basic? long false (escaped long n cs ++ (closing '\"' long ++ rest)) = some (cs, rest) := by
  induction cs generalizing n with
  | nil =>
      cases long with
      | false => simp [escaped, closing, basic?]
      | true =>
          change basic? true false ('\"' :: '\"' :: '\"' :: rest) = _
          rw [basic?, if_pos rfl, longEnd?_closing hrest]
  | cons c more ih =>
      by_cases hc : c = '\"'
      · subst hc
        rcases escaped_quote long n more with hescaped | ⟨rfl, -, hraw⟩
        · rw [hescaped, List.cons_append, List.cons_append, basic?_short (by decide)
            (endsLine_cons (by decide) (by decide) (by decide)), ih]
          rfl
        · rw [hraw]
          exact basic?_quote hrest (two_quotes_not_isPrefix_escaped more (Nat.succ_pos n))
            (ih (n + 1)) escaped_eq_nil escaped_eq_quote
      · rw [escaped_cons_of_ne hc, List.append_assoc, basic?_escapeChar hc, ih]
        rfl

theorem literal?_plain (hquote : c ≠ '\'')
    (hcontrol : ¬(isControl c = true ∧ ¬(long = true ∧ c = '\n'))) :
    literal? long (c :: cs) = add (some c) (literal? long cs) := by
  have hreturn : c ≠ '\r' := by
    rintro rfl
    exact hcontrol ⟨by decide, by simp⟩
  rw [literal?.eq_4 long c cs hquote (by simp [hreturn]), if_neg hcontrol]

/-- A text without quotes and control characters stands for itself within a line. -/
theorem literal?_short (h : ∀ c ∈ cs, c ≠ '\'' ∧ isControl c = false) :
    literal? false (cs ++ '\'' :: rest) = some (cs, rest) := by
  induction cs with
  | nil => simp [literal?]
  | cons c more ih =>
      obtain ⟨⟨hquote, hcontrol⟩, hmore⟩ := List.forall_mem_cons.mp h
      rw [List.cons_append, literal?_plain hquote (by simp [hcontrol]), ih hmore]
      rfl

/-- A text without control characters and without three quotes side by side stands for itself over several
lines. -/
theorem literal?_long (hrest : rest.head? ≠ some '\'') {n : Nat}
    (hcontrol : ∀ c ∈ cs, isControl c = true → c = '\n') (hrun : hasRun '\'' 2 n cs = false) :
    literal? true (cs ++ '\'' :: '\'' :: '\'' :: rest) = some (cs, rest) := by
  induction cs generalizing n with
  | nil =>
      change literal? true ('\'' :: '\'' :: '\'' :: rest) = _
      rw [literal?, if_pos rfl, longEnd?_closing hrest]
  | cons c more ih =>
      obtain ⟨hfirst, hmore⟩ := List.forall_mem_cons.mp hcontrol
      rw [hasRun] at hrun
      by_cases hc : c = '\''
      · subst hc
        rw [if_pos rfl, Bool.or_eq_false_iff] at hrun
        have htwo : ¬['\'', '\''] <+: more := by
          rintro ⟨after, rfl⟩
          simp [hasRun] at hrun
        exact literal?_quote hrest htwo (ih hmore hrun.2)
      · rw [if_neg hc] at hrun
        rw [List.cons_append, literal?_plain hc (fun h => h.2 ⟨rfl, hfirst h.1⟩), ih hmore hrun]
        rfl

end Texts

section Styles

/-- What a style asks of a text. -/
def Style.Suits (cs : List Char) : Style → Prop
  | basic => True
  | longBasic => True
  | literal => ∀ c ∈ cs, c ≠ '\'' ∧ isControl c = false
  | longLiteral => (∀ c ∈ cs, isControl c = true → c = '\n') ∧ hasRun '\'' 2 0 cs = false

theorem any_control_eq_false_iff (cs : List Char) :
    (cs.any fun c => isControl c && c != '\n') = false ↔
      ∀ c ∈ cs, isControl c = true → c = '\n' := by
  simp [List.any_eq_false]

/-- A text suits the style that it is quoted in. -/
theorem suits_ofText (cs : List Char) : (Style.ofText cs).Suits cs := by
  rw [Style.ofText]
  split_ifs with hbasic hliteral hlongBasic hlongLiteral hlines
  · trivial
  · simp only [Bool.and_eq_true, Bool.not_eq_true', any_control_eq_false_iff,
      List.contains_eq_mem, decide_eq_false_iff_not] at hliteral
    obtain ⟨⟨hcontrols, hquotes⟩, hlines⟩ := hliteral
    refine fun c hc => ⟨fun heq => hquotes (heq ▸ hc), ?_⟩
    rw [← Bool.not_eq_true]
    exact fun hcontrol => hlines (hcontrols c hc hcontrol ▸ hc)
  · trivial
  · simp only [Bool.and_eq_true, Bool.not_eq_true', any_control_eq_false_iff] at hlongLiteral
    exact hlongLiteral
  · trivial
  · trivial

/-- A line end that was put in front of a long text is left out again. -/
theorem afterOpening_long (hfirst : ∀ c, w.head? = some c → c ≠ '\r' ∧ (c = '\n' → '\n' ∈ cs))
    (hq : q ≠ '\n' ∧ q ≠ '\r') :
    afterOpening ((if cs.contains '\n' then ['\n'] else []) ++ (w ++ q :: rest)) = w ++ q :: rest := by
  by_cases hlines : '\n' ∈ cs
  · simp [hlines, afterOpening]
  · have hhead : ∀ c, (w ++ q :: rest).head? = some c → c ≠ '\n' ∧ c ≠ '\r' := by
      intro c hc
      cases w with
      | nil =>
          obtain rfl := Option.some.inj hc
          exact hq
      | cons d more =>
          obtain rfl := Option.some.inj hc
          obtain ⟨hreturn, hfeed⟩ := hfirst d rfl
          exact ⟨fun heq => hlines (hfeed heq), hreturn⟩
    rw [List.contains_eq_mem, decide_eq_false hlines, if_neg Bool.false_ne_true, List.nil_append,
      afterOpening]
    · exact fun _ heq => (hhead _ (by rw [heq]; rfl)).1 rfl
    · exact fun _ heq => (hhead _ (by rw [heq]; rfl)).2 rfl

theorem quoted?_basic (h : ¬['\"', '\"'] <+: cs) :
    quoted? ('\"' :: cs) = basic? false false cs := by
  rw [quoted?]
  rintro rest rfl
  exact h ⟨rest, rfl⟩

theorem quoted?_literal (h : ¬['\'', '\''] <+: cs) :
    quoted? ('\'' :: cs) = literal? false cs := by
  rw [quoted?]
  rintro rest rfl
  exact h ⟨rest, rfl⟩

/-- Text before a single quote, with no quote in front, does not start with two of them. -/
theorem two_not_isPrefix (hw : w.head? ≠ some q) (hrest : rest.head? ≠ some q) :
    ¬[q, q] <+: w ++ q :: rest := by
  rintro ⟨after, hafter⟩
  cases w with
  | nil =>
      rw [List.nil_append] at hafter
      exact hrest (by rw [← (List.cons.inj hafter).2]; rfl)
  | cons c more => exact hw (by rw [(List.cons.inj hafter).1]; rfl)

theorem head?_escaped_short (cs : List Char) : (escaped false 0 cs).head? ≠ some '\"' := by
  cases cs with
  | nil => simp [escaped]
  | cons c more =>
      by_cases hc : c = '\"'
      · simp [escaped, hc]
      · obtain ⟨d, others, hd, hne, -⟩ := exists_head_escapeChar false hc
        simp [escaped_cons_of_ne hc, hd, hne]

theorem head?_escaped_long (h : (escaped true 0 cs).head? = some c) :
    c ≠ '\r' ∧ (c = '\n' → '\n' ∈ cs) := by
  cases cs with
  | nil => simp [escaped] at h
  | cons d more =>
      by_cases hd : d = '\"'
      · subst hd
        have hquote : c = '\\' ∨ c = '\"' := by
          rcases escaped_quote true 0 more with hescaped | ⟨-, -, hraw⟩
          · rw [hescaped] at h
            exact .inl (Option.some.inj h).symm
          · rw [hraw] at h
            exact .inr (Option.some.inj h).symm
        rcases hquote with rfl | rfl <;> simp
      · obtain ⟨first, others, hfirst, -, hreturn, hfeed⟩ :=
          exists_head_escapeChar true hd
        rw [escaped_cons_of_ne hd, hfirst] at h
        obtain rfl := Option.some.inj h
        exact ⟨hreturn, fun heq => hfeed heq ▸ List.mem_cons_self⟩

/-- A text in quotes of a style that it suits is read back. -/
theorem quoted?_write {style : Style} (h : style.Suits cs) (hrest : EndsText rest) :
    quoted? (style.write cs ++ rest) = some (cs, rest) := by
  have hbasic : rest.head? ≠ some '\"' := fun hq => (hrest _ hq).1 rfl
  have hliteral : rest.head? ≠ some '\'' := fun hq => (hrest _ hq).2 rfl
  cases style with
  | basic =>
      have hread := basic?_escaped false cs hbasic 0
      simp only [Style.write, List.cons_append, List.append_assoc, List.nil_append]
      rw [quoted?_basic (two_not_isPrefix (head?_escaped_short cs) hbasic)]
      exact hread
  | literal =>
      have hhead : cs.head? ≠ some '\'' := fun hq => (h _ (List.mem_of_mem_head? hq)).1 rfl
      simp only [Style.write, List.cons_append, List.append_assoc, List.nil_append]
      rw [quoted?_literal (two_not_isPrefix hhead hliteral)]
      exact literal?_short h
  | longBasic =>
      have hread := basic?_escaped true cs hbasic 0
      have hfirst : ∀ c, (escaped true 0 cs).head? = some c → c ≠ '\r' ∧ (c = '\n' → '\n' ∈ cs) :=
        fun c => head?_escaped_long
      simp only [Style.write, Toml.long, List.cons_append, List.append_assoc, List.nil_append]
      rw [quoted?, afterOpening_long hfirst (by decide)]
      exact hread
  | longLiteral =>
      have hhead : ∀ c, cs.head? = some c → c ≠ '\r' ∧ (c = '\n' → '\n' ∈ cs) := by
        intro c hc
        have hmem : c ∈ cs := List.mem_of_mem_head? hc
        refine ⟨?_, fun heq => heq ▸ hmem⟩
        rintro rfl
        exact absurd (h.1 '\r' hmem (by decide)) (by decide)
      simp only [Style.write, Toml.long, List.cons_append, List.append_assoc, List.nil_append]
      rw [quoted?, afterOpening_long hhead (by decide)]
      exact literal?_long hliteral h.1 h.2

/-- A text in quotes is read back. -/
theorem quoted?_quote (s : String) (hrest : EndsText rest) :
    quoted? (quote s ++ rest) = some (s.toList, rest) :=
  quoted?_write (suits_ofText s.toList) hrest

end Styles

end Toml

end Automation
