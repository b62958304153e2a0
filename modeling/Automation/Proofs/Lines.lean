import Automation.Text.Lines
import Mathlib.Data.List.Basic

/-
Splitting and joining.

Splitting is a homomorphism: what stands on the two sides of a separator is split on its own.
Joining texts that have lines of their own therefore gives all of their lines in order, and a
line of a text is a text with one line.
-/

namespace Automation.Text

section

variable {α : Type} [DecidableEq α] (separator : α)

theorem splitAt_of_notMem {xs : List α} (h : separator ∉ xs) :
    splitAt separator xs = [xs] := by
  induction xs with
  | nil => rfl
  | cons c rest ih =>
      simp only [List.mem_cons, not_or] at h
      simp [splitAt, Ne.symm h.1, ih h.2]

theorem splitAt_append_cons (xs ys : List α) :
    splitAt separator (xs ++ separator :: ys) =
      splitAt separator xs ++ splitAt separator ys := by
  induction xs with
  | nil => simp [splitAt]
  | cons c rest ih =>
      by_cases hc : c = separator
      · simp [splitAt, hc, ih]
      · cases hs : splitAt separator rest with
        | nil => exact absurd hs (splitAt_ne_nil separator rest)
        | cons first others => simp [splitAt, hc, ih, hs]

/-- Joining lists and splitting the result splits each of them. -/
theorem splitAt_intercalate {xss : List (List α)} (h : xss ≠ []) :
    splitAt separator (List.intercalate [separator] xss) =
      xss.flatMap (splitAt separator) := by
  induction xss with
  | nil => exact absurd rfl h
  | cons xs rest ih =>
      cases rest with
      | nil => simp [List.intercalate]
      | cons ys others =>
          rw [List.intercalate_cons_cons, List.append_assoc, List.singleton_append,
            splitAt_append_cons, ih (by simp)]
          simp

theorem notMem_of_mem_splitAt {xs piece : List α} (h : piece ∈ splitAt separator xs) :
    separator ∉ piece := by
  induction xs generalizing piece with
  | nil =>
      simp only [splitAt, List.mem_singleton] at h
      simp [h]
  | cons c rest ih =>
      by_cases hc : c = separator
      · simp only [splitAt, hc, ↓reduceIte, List.mem_cons] at h
        rcases h with rfl | h
        · simp
        · exact ih h
      · cases hs : splitAt separator rest with
        | nil => exact absurd hs (splitAt_ne_nil separator rest)
        | cons first others =>
            simp only [splitAt, hc, ↓reduceIte, hs, List.mem_cons] at h
            rcases h with rfl | h
            · have hfirst : separator ∉ first := ih (by simp [hs])
              simp [Ne.symm hc, hfirst]
            · exact ih (by simp [hs, h])

end

/-- Joining texts gives the lines of each of them, in order. -/
theorem lines_unlines {ls : List String} (h : ls ≠ []) : lines (unlines ls) = ls.flatMap lines := by
  have hsplit := splitAt_intercalate '\n' (show ls.map String.toList ≠ [] by simpa using h)
  simp only [lines, unlines, String.toList_ofList, hsplit, List.flatMap_map, List.map_flatMap]
  rfl

theorem unlines_lines (text : String) : unlines (lines text) = text := by
  simp [unlines, lines, Function.comp_def, intercalate_splitAt]

/-- A line has no line feed, so it is its own only line. -/
theorem lines_of_mem_lines {text line : String} (h : line ∈ lines text) : lines line = [line] := by
  simp only [lines, List.mem_map] at h
  obtain ⟨piece, hpiece, rfl⟩ := h
  simp [lines, splitAt_of_notMem '\n' (notMem_of_mem_splitAt '\n' hpiece)]

/-- Lines of a text stand for themselves among texts that are split. -/
theorem flatMap_lines_of_subset {text : String} {ls : List String} (h : ls ⊆ lines text) :
    ls.flatMap lines = ls := by
  induction ls with
  | nil => rfl
  | cons line rest ih =>
      simp only [List.cons_subset] at h
      simp [lines_of_mem_lines h.1, ih h.2]

end Automation.Text
