/-
Texts as lists of lines.

A line feed separates two lines, so a text always has at least one line and a final line feed
opens an empty last one.  Splitting and joining undo each other as long as no line holds a line
feed of its own.
-/

namespace Automation.Text

/-- Split a list at every occurrence of a separator. -/
def splitAt {α : Type} [DecidableEq α] (separator : α) : List α → List (List α)
  | [] => [[]]
  | c :: rest =>
      if c = separator then [] :: splitAt separator rest
      else
        match splitAt separator rest with
        | [] => [[c]]
        | first :: others => (c :: first) :: others

/-- The lines of a text, with line feeds as separators. -/
def lines (text : String) : List String :=
  (splitAt '\n' text.toList).map String.ofList

/-- Join lines with one line feed between neighbours. -/
def unlines (ls : List String) : String :=
  String.ofList (List.intercalate ['\n'] (ls.map String.toList))

theorem splitAt_ne_nil {α : Type} [DecidableEq α] (separator : α) (xs : List α) :
    splitAt separator xs ≠ [] := by
  induction xs with
  | nil => simp [splitAt]
  | cons c rest ih =>
      simp only [splitAt]
      split
      · simp
      · split <;> simp

theorem intercalate_splitAt {α : Type} [DecidableEq α] (separator : α) (xs : List α) :
    List.intercalate [separator] (splitAt separator xs) = xs := by
  induction xs with
  | nil => rfl
  | cons c rest ih =>
      simp only [splitAt]
      split
      · next h =>
        cases hs : splitAt separator rest with
        | nil => exact absurd hs (splitAt_ne_nil separator rest)
        | cons first others =>
            rw [hs] at ih
            simp [List.intercalate_cons_cons, ih, h]
      · cases hs : splitAt separator rest with
        | nil => exact absurd hs (splitAt_ne_nil separator rest)
        | cons first others =>
            rw [hs] at ih
            cases others with
            | nil => simpa [List.intercalate] using ih
            | cons second more =>
                simp only [List.intercalate_cons_cons] at ih ⊢
                simp [ih]

end Automation.Text
