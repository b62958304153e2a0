import Automation.Json.Value
import Mathlib.Data.List.Basic

/-
Leaves of JSON values, written and read back.

A text is read back character by character, whichever way each of them is written.  A whole number that
fits in a word is read back as long as what follows it could not be a part of it.
-/

namespace Automation

open Json (escape)

namespace Document

section Texts

variable {left rest : List Char} {more : List Piece}

/-- What a character of a text is read as: a control character without a short escape by its number. -/
def pieceOf (c : Char) : Piece :=
  if c.toNat < 0x20 ∧ c ∉ ['\n', '\r', '\t', '\x08', '\x0c'] then .unit c.toNat else .char c

/-- The two digits of a control character. -/
theorem hexWord?_control : ∀ n < 0x20,
    hexWord? '0' '0' (Nat.digitChar (n / 16)) (Nat.digitChar (n % 16)) = some n := by
  decide

theorem pieces_control {n : Nat} (hn : n < 0x20) (h : pieces rest = some (more, left)) :
    pieces ('\\' :: 'u' :: '0' :: '0' :: Nat.digitChar (n / 16) :: Nat.digitChar (n % 16) :: rest) =
      some (.unit n :: more, left) := by
  simp [pieces, hexWord?_control n hn, h]

theorem pieces_short {e c : Char} (he : e ≠ 'u') (hc : shortEscape? e = some c)
    (h : pieces rest = some (more, left)) :
    pieces ('\\' :: e :: rest) = some (.char c :: more, left) := by
  rw [pieces]
  · simp [hc, h]
  · simp [he]

theorem pieces_plain {c : Char} (hquote : c ≠ '\"') (hescape : c ≠ '\\') (hcontrol : ¬c.toNat < 0x20)
    (h : pieces rest = some (more, left)) :
    pieces (c :: rest) = some (.char c :: more, left) := by
  rw [pieces]
  · simp [hescape, hcontrol, h]
  · simp [hquote]
  · simp [hescape]
  · simp [hescape]

/-- An escaped character is read as itself. -/
theorem pieces_escape (c : Char) (h : pieces rest = some (more, left)) :
    pieces (escape c ++ rest) = some (pieceOf c :: more, left) := by
  by_cases hshort : c ∈ ['\"', '\\', '\n', '\r', '\t', '\x08', '\x0c']
  · simp only [List.mem_cons, List.not_mem_nil, or_false] at hshort
    rcases hshort with rfl | rfl | rfl | rfl | rfl | rfl | rfl
    all_goals exact pieces_short (by decide) rfl h
  · simp only [List.mem_cons, List.not_mem_nil, or_false, not_or] at hshort
    obtain ⟨hquote, hescape, hfeed, hreturn, htab, hback, hform⟩ := hshort
    rw [escape, if_neg hquote, if_neg hescape, if_neg hfeed, if_neg hreturn, if_neg htab,
      if_neg hback, if_neg hform, pieceOf]
    by_cases hcontrol : c.toNat < 0x20
    · rw [if_pos hcontrol, if_pos (by simp [*])]
      exact pieces_control hcontrol h
    · rw [if_neg hcontrol, if_neg (by simp [hcontrol])]
      exact pieces_plain hquote hescape hcontrol h

theorem pieces_flatMap_escape (cs left : List Char) :
    pieces (cs.flatMap escape ++ '\"' :: left) = some (cs.map pieceOf, left) := by
  induction cs with
  | nil => rfl
  | cons c rest ih =>
      rw [List.flatMap_cons, List.append_assoc]
      exact pieces_escape c ih

/-- A unit that is no surrogate is a character by itself. -/
theorem assemble_unit {n : Nat} (hn : n < 0x20) (more : List Piece) :
    assemble (.unit n :: more) = (assemble more).map (Char.ofNat n :: ·) := by
  have hhigh : isHighSurrogate n = false := by
    rw [isHighSurrogate]
    simp
    omega
  have hlow : isLowSurrogate n = false := by
    rw [isLowSurrogate]
    simp
    omega
  cases more with
  | nil => simp [assemble, hhigh, hlow]
  | cons piece more => cases piece <;> simp [assemble, hhigh, hlow]

theorem assemble_map_pieceOf (cs : List Char) : assemble (cs.map pieceOf) = some cs := by
  induction cs with
  | nil => rfl
  | cons c rest ih =>
      rw [List.map_cons, pieceOf]
      split_ifs with hcontrol
      · rw [assemble_unit hcontrol.1, ih, Char.ofNat_toNat]
        rfl
      · rw [assemble, ih]
        rfl

/-- A text is read back up to its closing quote. -/
theorem text?_escape (s : String) (left : List Char) :
    text? (s.toList.flatMap escape ++ '\"' :: left) = some (some s, left) := by
  simp [text?, pieces_flatMap_escape, assemble_map_pieceOf]

end Texts

end Document

section Numerals

variable {rest : List Char} {n : Nat}

/-- What may follow a number: nothing that could be a part of it. -/
def EndsNumeral (rest : List Char) : Prop :=
  ∀ c, rest.head? = some c → c.isDigit = false ∧ c ≠ '.' ∧ c ≠ 'e' ∧ c ≠ 'E'

theorem endsNumeral_nil : EndsNumeral [] := fun _ hnone => nomatch hnone

theorem endsNumeral_cons {c : Char} (h : c.isDigit = false ∧ c ≠ '.' ∧ c ≠ 'e' ∧ c ≠ 'E') :
    EndsNumeral (c :: rest) := by
  intro d hd
  obtain rfl := Option.some.inj hd
  exact h

/-- The digits of a number. -/
theorem isDigit_of_mem_digits {c : Char} (h : c ∈ Nat.toDigits 10 n) : c.isDigit = true :=
  Nat.isDigit_of_mem_toDigits (by decide) (by decide) h

theorem digitChar_ne_zero : ∀ n < 10, n ≠ 0 → Nat.digitChar n ≠ '0' := by decide

/-- No number but zero starts with a zero. -/
theorem head?_digits (hn : n ≠ 0) : (Nat.toDigits 10 n).head? ≠ some '0' := by
  induction n using Nat.strongRecOn with
  | ind n ih =>
      rw [Nat.toDigits_eq_if (by decide)]
      by_cases hlt : n < 10
      · rw [if_pos hlt]
        simpa using digitChar_ne_zero n hlt hn
      · rw [if_neg hlt, List.head?_append_of_ne_nil _ Nat.toDigits_ne_nil]
        exact ih (n / 10) (by omega) (by omega)

theorem le_ofDigitChars (ds : List Char) (n : Nat) : n ≤ Nat.ofDigitChars 10 ds n := by
  induction ds generalizing n with
  | nil => exact Nat.le_refl n
  | cons c rest ih =>
      rw [Nat.ofDigitChars_cons]
      have hrest := ih (10 * n + (c.toNat - '0'.toNat))
      omega

namespace Numeral

/-- A number that a word holds is gathered from all of its digits. -/
theorem gather_of_lt {ds : List Char} (h : Nat.ofDigitChars 10 ds n < wordLimit) :
    gather n ds = (Nat.ofDigitChars 10 ds n, []) := by
  induction ds generalizing n with
  | nil => rfl
  | cons c rest ih =>
      rw [Nat.ofDigitChars_cons, Nat.mul_comm 10 n] at h ⊢
      have hnext : n * 10 + digitValue c < wordLimit :=
        Nat.lt_of_le_of_lt (le_ofDigitChars rest _) h
      rw [gather, if_pos hnext]
      exact ih h

/-- The numeral of a whole number. -/
def ofInt (n : Int) : Numeral := ⟨decide (n < 0), Nat.toDigits 10 n.natAbs, [], none⟩

/-- A whole number that one of the two kinds of words holds. -/
def FitsWord (n : Int) : Prop := -0x8000000000000000 ≤ n ∧ n < 0x10000000000000000

theorem value?_ofInt {n : Int} (h : FitsWord n) : (ofInt n).value? = some (.integer n) := by
  obtain ⟨hlow, hhigh⟩ := h
  have hgather : gather 0 (Nat.toDigits 10 n.natAbs) = (n.natAbs, []) := by
    rw [gather_of_lt, Nat.ofDigitChars_ten_toDigits]
    rw [Nat.ofDigitChars_ten_toDigits, wordLimit]
    omega
  rw [value?, ofInt, hgather]
  by_cases hn : n < 0
  · have hfits : ¬(n.natAbs = 0 ∨ 0x8000000000000000 < n.natAbs) := by omega
    have habs : -(n.natAbs : Int) = n := by omega
    simp only [hn, decide_true, ne_eq, not_true_eq_false, ↓reduceIte, Option.isNone_none, and_self,
      hfits, habs]
  · have habs : (n.natAbs : Int) = n := by omega
    simp only [hn, decide_false, ne_eq, not_true_eq_false, ↓reduceIte, Option.isNone_none, and_self,
      Bool.false_eq_true, not_false_eq_true, habs]

end Numeral

namespace Document

theorem splitDigits_digits (h : EndsNumeral rest) :
    splitDigits (Nat.toDigits 10 n ++ rest) = (Nat.toDigits 10 n, rest) := by
  have hdigits : ∀ c ∈ Nat.toDigits 10 n, c.isDigit = true := fun _ hc => isDigit_of_mem_digits hc
  rw [splitDigits, List.takeWhile_append_of_pos hdigits, List.dropWhile_append_of_pos hdigits]
  cases rest with
  | nil => simp
  | cons c rest => simp [(h c rfl).1]

theorem numeralTail?_ends (h : EndsNumeral rest) (negative : Bool) (whole : List Char) :
    numeralTail? negative whole rest = some (⟨negative, whole, [], none⟩, rest) := by
  cases rest with
  | nil => rfl
  | cons c rest =>
      obtain ⟨-, hpoint, he, hE⟩ := h c rfl
      rw [numeralTail?]
      · simp [exponent?, he, hE]
      · simp [hpoint]

/-- Digits without a leading zero are a numeral. -/
theorem unsignedNumeral?_digits (h : EndsNumeral rest) (negative : Bool) :
    unsignedNumeral? negative (Nat.toDigits 10 n ++ rest) =
      some (⟨negative, Nat.toDigits 10 n, [], none⟩, rest) := by
  rw [unsignedNumeral?, splitDigits_digits h]
  split
  · next hnil =>
    exact absurd (congrArg Prod.fst hnil) Nat.toDigits_ne_nil
  · next second others left hzero =>
    have hdigits : Nat.toDigits 10 n = '0' :: second :: others := congrArg Prod.fst hzero
    have hn : n = 0 := by
      by_contra hn
      exact head?_digits hn (by rw [hdigits]; rfl)
    subst hn
    cases hdigits
  · next ds left hne hzero heq =>
    cases heq
    exact numeralTail?_ends h negative _

/-- A whole number is read back as its numeral. -/
theorem numeral?_integer (h : EndsNumeral rest) (n : Int) :
    numeral? ((toString n).toList ++ rest) = some (.ofInt n, rest) := by
  rw [Int.toString_eq_repr, Int.repr_eq_if]
  by_cases hn : 0 ≤ n
  · have hsign : decide (n < 0) = false := by simpa using hn
    have habs : n.toNat = n.natAbs := by omega
    rw [if_pos hn, Nat.toList_repr, Numeral.ofInt, hsign, ← habs, ← unsignedNumeral?_digits h]
    cases hdigits : Nat.toDigits 10 n.toNat with
    | nil => exact absurd hdigits Nat.toDigits_ne_nil
    | cons c ds =>
        have hc : c.isDigit = true := isDigit_of_mem_digits (n := n.toNat) (by simp [hdigits])
        rw [List.cons_append, numeral?]
        rintro others heq
        obtain rfl : c = '-' := (List.cons.inj heq).1
        cases hc
  · have hsign : decide (n < 0) = true := by simpa using hn
    have habs : (-n).toNat = n.natAbs := by omega
    rw [if_neg hn, String.toList_append, Nat.toList_repr, Numeral.ofInt, hsign, ← habs,
      ← unsignedNumeral?_digits h]
    rfl

end Document

end Numerals

end Automation
