import Automation.LineOffsets
import Automation.Proofs.Lines

/-
Positions survive composition.

A template that was read is the text it was read from, cut at its only two marker lines.  In a
composed unit the lines of the fragments stand where the markers stood, and the offsets that come
with the composition lead every line back to the piece it came from.
-/

namespace Automation

namespace Template

theorem mem_markerPlaces {marker : String} {ls : List String} {i : Nat} :
    i ∈ markerPlaces marker ls ↔ ∃ line, ls[i]? = some line ∧ isMarker marker line = true := by
  simp only [markerPlaces, List.mem_filter, List.mem_range]
  constructor
  · rintro ⟨hi, hmarker⟩
    rw [List.getElem?_eq_getElem hi] at hmarker ⊢
    exact ⟨_, rfl, by simpa using hmarker⟩
  · rintro ⟨line, hline, hmarker⟩
    have hi := (List.getElem?_eq_some_iff.mp hline).1
    exact ⟨hi, by simpa [hline] using hmarker⟩

theorem findMarker_eq_ok_iff {marker : String} {ls : List String} {i : Nat} :
    findMarker marker ls = .ok i ↔ markerPlaces marker ls = [i] := by
  rw [findMarker]
  split <;> simp_all

/-- The line that was found is a marker, and it is the only one. -/
theorem findMarker_unique {marker : String} {ls : List String} {i : Nat}
    (h : findMarker marker ls = .ok i) :
    ∃ line, ls[i]? = some line ∧ isMarker marker line = true ∧
      ∀ j other, ls[j]? = some other → isMarker marker other = true → j = i := by
  rw [findMarker_eq_ok_iff] at h
  have hmem : i ∈ markerPlaces marker ls := by simp [h]
  obtain ⟨line, hline, hmarker⟩ := mem_markerPlaces.mp hmem
  refine ⟨line, hline, hmarker, ?_⟩
  intro j other hother hj
  have hplace : j ∈ markerPlaces marker ls := mem_markerPlaces.mpr ⟨other, hother, hj⟩
  simpa [h] using hplace

/-- A line away from the place of the only marker is none. -/
theorem isMarker_eq_false_of_findMarker {marker : String} {ls : List String} {i j : Nat}
    (h : findMarker marker ls = .ok i) (hj : j ≠ i) {other : String}
    (hother : ls[j]? = some other) : isMarker marker other = false := by
  obtain ⟨_, _, _, hunique⟩ := findMarker_unique h
  by_contra hmarker
  exact hj (hunique j other hother (by simpa using hmarker))

theorem isMarker_programMarker_ne {line : String} (h : isMarker programMarker line = true) :
    isMarker conditionMarker line = false := by
  simp only [isMarker, beq_iff_eq] at h
  simp [isMarker, h, programMarker, conditionMarker]

/-- What reading a template has found: two places, the program marker on the earlier. -/
theorem exists_places_of_parse {text : String} {t : Template} (h : parse text = .ok t) :
    ∃ program condition, program < condition ∧
      findMarker programMarker (Text.lines text) = .ok program ∧
      findMarker conditionMarker (Text.lines text) = .ok condition ∧
      t = ⟨(Text.lines text).take program,
        ((Text.lines text).take condition).drop (program + 1),
        (Text.lines text).drop (condition + 1)⟩ := by
  simp only [parse] at h
  split at h
  · cases h
  · next program hprogram =>
    split at h
    · cases h
    · next condition hcondition =>
      split at h
      · cases h
      · next hle =>
        refine ⟨program, condition, ?_, hprogram, hcondition, by simpa using h.symm⟩
        -- one line cannot be both markers, so the places differ
        have hne : program ≠ condition := by
          rintro rfl
          obtain ⟨line, hline, hmarker, _⟩ := findMarker_unique hprogram
          obtain ⟨other, hother, hother', _⟩ := findMarker_unique hcondition
          rw [hline, Option.some_inj] at hother
          subst hother
          simp [isMarker_programMarker_ne hmarker] at hother'
        omega

/-- A list cut at two of its places is its three pieces with the two elements between them. -/
private theorem eq_take_cons_drop_cons {α : Type} {ls : List α} {i j : Nat} {x y : α} (hij : i < j)
    (hx : ls[i]? = some x) (hy : ls[j]? = some y) :
    ls = ls.take i ++ x :: (ls.take j).drop (i + 1) ++ y :: ls.drop (j + 1) := by
  obtain ⟨hi, rfl⟩ := List.getElem?_eq_some_iff.mp hx
  obtain ⟨hj, rfl⟩ := List.getElem?_eq_some_iff.mp hy
  have hfirst : ls.take i ++ ls[i] :: (ls.take j).drop (i + 1) = ls.take j := by
    have hcut := List.take_append_drop i (ls.take j)
    rwa [List.take_take, Nat.min_eq_left (Nat.le_of_lt hij), List.drop_eq_getElem_cons (by simp; omega),
      List.getElem_take] at hcut
  rw [hfirst, List.getElem_cons_drop, List.take_append_drop]

/-- No line of a template is a marker. -/
def IsPlain (line : String) : Prop :=
  isMarker programMarker line = false ∧ isMarker conditionMarker line = false

theorem isPlain_of_places {ls : List String} {program condition j : Nat} {line : String}
    (hprogram : findMarker programMarker ls = .ok program)
    (hcondition : findMarker conditionMarker ls = .ok condition)
    (hj : j ≠ program) (hj' : j ≠ condition) (hline : ls[j]? = some line) : IsPlain line :=
  ⟨isMarker_eq_false_of_findMarker hprogram hj hline,
    isMarker_eq_false_of_findMarker hcondition hj' hline⟩

/-- A template and the text it was read from: the lines before, between and after the only two
marker lines. -/
structure CutFrom (t : Template) (text : String) : Prop where
  cut : ∃ program condition,
    isMarker programMarker program = true ∧ isMarker conditionMarker condition = true ∧
      Text.lines text = t.head ++ program :: t.middle ++ condition :: t.tail
  plain : ∀ line ∈ t.head ++ t.middle ++ t.tail, IsPlain line

theorem cutFrom_of_parse {text : String} {t : Template} (h : parse text = .ok t) :
    t.CutFrom text := by
  obtain ⟨program, condition, hlt, hprogram, hcondition, rfl⟩ := exists_places_of_parse h
  obtain ⟨p, hp, hpmarker, _⟩ := findMarker_unique hprogram
  obtain ⟨q, hq, hqmarker, _⟩ := findMarker_unique hcondition
  refine ⟨⟨p, q, hpmarker, hqmarker, eq_take_cons_drop_cons hlt hp hq⟩, ?_⟩
  intro line hline
  simp only [List.mem_append] at hline
  rcases hline with (hline | hline) | hline
  · obtain ⟨k, hk⟩ := List.mem_iff_getElem?.mp hline
    rw [List.getElem?_take] at hk
    split at hk
    · exact isPlain_of_places hprogram hcondition (by omega) (by omega) hk
    · cases hk
  · obtain ⟨k, hk⟩ := List.mem_iff_getElem?.mp hline
    rw [List.getElem?_drop, List.getElem?_take] at hk
    split at hk
    · exact isPlain_of_places hprogram hcondition (by omega) (by omega) hk
    · cases hk
  · obtain ⟨k, hk⟩ := List.mem_iff_getElem?.mp hline
    rw [List.getElem?_drop] at hk
    exact isPlain_of_places hprogram hcondition (by omega) (by omega) hk

/-- The marker lines give way to the lines of the fragments, and all else stays. -/
theorem lines_compose {text : String} {t : Template} (h : t.CutFrom text) (main : String)
    (trigger : Option String) :
    Text.lines (t.compose main trigger).text =
      t.head ++ Text.lines main ++ t.middle ++ Text.lines (trigger.getD "") ++ t.tail := by
  obtain ⟨p, q, _, _, hcut⟩ := h.cut
  have hsub : t.head ⊆ Text.lines text ∧ t.middle ⊆ Text.lines text ∧
      t.tail ⊆ Text.lines text := by
    rw [hcut]
    refine ⟨fun line hline => ?_, fun line hline => ?_, fun line hline => ?_⟩
    all_goals simp [hline]
  have hhead : t.head.flatMap Text.lines = t.head := Text.flatMap_lines_of_subset hsub.1
  have hmiddle : t.middle.flatMap Text.lines = t.middle := Text.flatMap_lines_of_subset hsub.2.1
  have htail : t.tail.flatMap Text.lines = t.tail := Text.flatMap_lines_of_subset hsub.2.2
  have hparts : t.head ++ [main] ++ t.middle ++ [trigger.getD ""] ++ t.tail ≠ [] := by simp
  rw [compose, Text.lines_unlines hparts]
  simp [List.flatMap_append, hhead, hmiddle, htail]

/-- The lines of the trigger condition as it is put in: one when there is none. -/
def triggerLineCount (trigger : Option String) : Nat := lineCount (trigger.getD "")

end Template

namespace Composition

/-- The line of the unit that the trigger condition starts on. -/
def triggerLine (c : Composition) : Nat := c.mainOffset + c.mainLineCount + c.triggerOffset

/-- The main body, read off the unit by its offsets. -/
def mainFragment (c : Composition) : String :=
  Text.unlines (((Text.lines c.text).drop c.mainOffset).take c.mainLineCount)

/-- The trigger condition, read off the unit by its offsets and the lines that come after it. -/
def triggerFragment (c : Composition) (after : Nat) : String :=
  let rest := (Text.lines c.text).drop c.triggerLine
  Text.unlines (rest.take (rest.length - after))

end Composition

namespace LineOffsets

theorem classify_of_lt {o : LineOffsets} {line : Int} (h : line < o.mainOffset + o.triggerStart) :
    o.classify line = (.mainBody, line - o.mainOffset) := by
  simp only [classify]
  rw [if_neg (by omega)]

theorem classify_of_le {o : LineOffsets} {line : Int} (h : o.mainOffset + o.triggerStart ≤ line) :
    o.classify line = (.triggerCondition, line - (o.mainOffset + o.triggerStart)) := by
  simp only [classify]
  rw [if_pos (by omega), Int.sub_sub]

end LineOffsets

namespace Template

/-- Every line of a composition is led back to where it came from, and the fragments can be read
off the text. -/
structure PositionsKept (t : Template) (main : String) (trigger : Option String)
    (c : Composition) (o : LineOffsets) : Prop where
  lines_text : Text.lines c.text =
    t.head ++ Text.lines main ++ t.middle ++ Text.lines (trigger.getD "") ++ t.tail
  before_main : ∀ i < c.mainOffset, ∃ row < 0, o.classify i = (.mainBody, row)
  in_main : ∀ k < lineCount main,
    (Text.lines c.text)[c.mainOffset + k]? = (Text.lines main)[k]? ∧
      o.classify (c.mainOffset + k : Nat) = (.mainBody, (k : Int))
  between : ∀ i, c.mainOffset + c.mainLineCount ≤ i → i < c.triggerLine →
    ∃ row : Int, c.mainLineCount ≤ row ∧ o.classify i = (.mainBody, row)
  in_trigger : ∀ k < triggerLineCount trigger,
    (Text.lines c.text)[c.triggerLine + k]? = (Text.lines (trigger.getD ""))[k]? ∧
      o.classify (c.triggerLine + k : Nat) = (.triggerCondition, (k : Int))
  after_trigger : ∀ i, c.triggerLine + triggerLineCount trigger ≤ i →
    i < (Text.lines c.text).length →
      ∃ row : Int, triggerLineCount trigger ≤ row ∧ o.classify i = (.triggerCondition, row)
  main_recovered : c.mainFragment = main
  trigger_recovered : c.triggerFragment t.tail.length = trigger.getD ""

section

variable (t : Template) (main : String) (trigger : Option String)

/-- What comes before the trigger condition is counted from the start of the main body. -/
theorem classify_of_lt_triggerLine {i : Nat} (h : i < (t.compose main trigger).triggerLine) :
    (LineOffsets.ofComposition (t.compose main trigger)).classify i =
      (.mainBody, (i : Int) - t.mainOffset) := by
  apply LineOffsets.classify_of_lt
  simp only [Composition.triggerLine] at h
  simp only [LineOffsets.triggerStart, LineOffsets.ofComposition]
  omega

/-- All else is counted from the start of the trigger condition. -/
theorem classify_of_triggerLine_le {i : Nat} (h : (t.compose main trigger).triggerLine ≤ i) :
    (LineOffsets.ofComposition (t.compose main trigger)).classify i =
      (.triggerCondition, (i : Int) - (t.compose main trigger).triggerLine) := by
  have hstart : ((t.compose main trigger).triggerLine : Int) =
      (LineOffsets.ofComposition (t.compose main trigger)).mainOffset +
        (LineOffsets.ofComposition (t.compose main trigger)).triggerStart := by
    simp only [Composition.triggerLine, LineOffsets.triggerStart, LineOffsets.ofComposition]
    omega
  rw [hstart]
  apply LineOffsets.classify_of_le
  omega

theorem triggerLine_compose :
    (t.compose main trigger).triggerLine = t.mainOffset + lineCount main + t.triggerOffset := rfl

theorem classify_before_main {i : Nat} (hi : i < t.mainOffset) :
    ∃ row < 0, (LineOffsets.ofComposition (t.compose main trigger)).classify i =
      (.mainBody, row) := by
  have hlt : i < (t.compose main trigger).triggerLine := by
    rw [triggerLine_compose]
    omega
  exact ⟨(i : Int) - t.mainOffset, by omega, classify_of_lt_triggerLine t main trigger hlt⟩

theorem classify_main {k : Nat} (hk : k < lineCount main) :
    (LineOffsets.ofComposition (t.compose main trigger)).classify (t.mainOffset + k : Nat) =
      (.mainBody, (k : Int)) := by
  have hlt : t.mainOffset + k < (t.compose main trigger).triggerLine := by
    rw [triggerLine_compose]
    omega
  rw [classify_of_lt_triggerLine t main trigger hlt]
  congr 1
  omega

theorem classify_between {i : Nat} (hle : t.mainOffset + lineCount main ≤ i)
    (hlt : i < (t.compose main trigger).triggerLine) :
    ∃ row : Int, lineCount main ≤ row ∧
      (LineOffsets.ofComposition (t.compose main trigger)).classify i = (.mainBody, row) :=
  ⟨(i : Int) - t.mainOffset, by omega, classify_of_lt_triggerLine t main trigger hlt⟩

theorem classify_trigger (k : Nat) :
    (LineOffsets.ofComposition (t.compose main trigger)).classify
        ((t.compose main trigger).triggerLine + k : Nat) = (.triggerCondition, (k : Int)) := by
  rw [classify_of_triggerLine_le t main trigger (by omega)]
  congr 1
  omega

theorem classify_after_trigger {i : Nat}
    (hle : (t.compose main trigger).triggerLine + triggerLineCount trigger ≤ i) :
    ∃ row : Int, triggerLineCount trigger ≤ row ∧
      (LineOffsets.ofComposition (t.compose main trigger)).classify i =
        (.triggerCondition, row) :=
  ⟨(i : Int) - (t.compose main trigger).triggerLine, by omega,
    classify_of_triggerLine_le t main trigger (by omega)⟩

end

section

variable {text : String} {t : Template} (h : t.CutFrom text) (main : String)
  (trigger : Option String)

include h

/-- From the main body on, a unit starts with the lines of the main body. -/
theorem drop_mainOffset_lines :
    (Text.lines (t.compose main trigger).text).drop t.mainOffset =
      Text.lines main ++ (t.middle ++ Text.lines (trigger.getD "") ++ t.tail) := by
  rw [lines_compose h]
  simp [mainOffset, List.append_assoc]

/-- From the trigger condition on, a unit is made of its lines and those after it. -/
theorem drop_triggerLine_lines :
    (Text.lines (t.compose main trigger).text).drop (t.compose main trigger).triggerLine =
      Text.lines (trigger.getD "") ++ t.tail := by
  have hstart : (t.compose main trigger).triggerLine =
      (t.head ++ Text.lines main ++ t.middle).length := by
    rw [triggerLine_compose]
    simp [mainOffset, triggerOffset, lineCount]
    omega
  rw [lines_compose h, hstart, List.append_assoc (t.head ++ Text.lines main ++ t.middle),
    List.drop_left]

theorem getElem?_lines_main {k : Nat} (hk : k < lineCount main) :
    (Text.lines (t.compose main trigger).text)[t.mainOffset + k]? = (Text.lines main)[k]? := by
  rw [← List.getElem?_drop, drop_mainOffset_lines h]
  exact List.getElem?_append_left hk

theorem getElem?_lines_trigger {k : Nat} (hk : k < triggerLineCount trigger) :
    (Text.lines (t.compose main trigger).text)[(t.compose main trigger).triggerLine + k]? =
      (Text.lines (trigger.getD ""))[k]? := by
  rw [← List.getElem?_drop, drop_triggerLine_lines h]
  exact List.getElem?_append_left hk

theorem mainFragment_compose : (t.compose main trigger).mainFragment = main := by
  change Text.unlines (((Text.lines (t.compose main trigger).text).drop t.mainOffset).take
    (Text.lines main).length) = main
  rw [drop_mainOffset_lines h, List.take_left, Text.unlines_lines]

theorem triggerFragment_compose :
    (t.compose main trigger).triggerFragment t.tail.length = trigger.getD "" := by
  simp only [Composition.triggerFragment, drop_triggerLine_lines h]
  rw [List.length_append, Nat.add_sub_cancel, List.take_left, Text.unlines_lines]

end

/-- Whatever the template and whatever the fragments: a composed unit is made of the lines it
should be made of, each of its lines is led back to its origin, and the fragments are recovered. -/
theorem positions_survive_composition {text : String} {t : Template} (h : parse text = .ok t)
    (main : String) (trigger : Option String) :
    t.CutFrom text ∧
      t.PositionsKept main trigger (t.compose main trigger)
        (.ofComposition (t.compose main trigger)) := by
  have hcut := cutFrom_of_parse h
  refine ⟨hcut, ?_⟩
  exact {
    lines_text := lines_compose hcut main trigger
    before_main := fun _ hi => classify_before_main t main trigger hi
    in_main := fun _ hk =>
      ⟨getElem?_lines_main hcut main trigger hk, classify_main t main trigger hk⟩
    between := fun _ hle hlt => classify_between t main trigger hle hlt
    in_trigger := fun k hk =>
      ⟨getElem?_lines_trigger hcut main trigger hk, classify_trigger t main trigger k⟩
    after_trigger := fun _ hle _ => classify_after_trigger t main trigger hle
    main_recovered := mainFragment_compose hcut main trigger
    trigger_recovered := triggerFragment_compose hcut main trigger }

/-- A template with a line on every side, fragments that hold marker lines themselves, and a final
line feed. -/
theorem positions_survive_nested_markers :
    parse "a\n \x7b\x7bprogram\x7d\x7d\nb\n\x7b\x7bcondition\x7d\x7d\t\nc" =
        .ok ⟨["a"], ["b"], ["c"]⟩ ∧
      Text.lines (compose ⟨["a"], ["b"], ["c"]⟩ "x\n\x7b\x7bprogram\x7d\x7d\n" none).text =
        ["a", "x", "\x7b\x7bprogram\x7d\x7d", "", "b", "", "c"] ∧
      (LineOffsets.ofComposition (compose ⟨["a"], ["b"], ["c"]⟩
        "x\n\x7b\x7bprogram\x7d\x7d\n" none)).classify 2 = (.mainBody, 1) := by
  have hparse : parse "a\n \x7b\x7bprogram\x7d\x7d\nb\n\x7b\x7bcondition\x7d\x7d\t\nc" =
      .ok ⟨["a"], ["b"], ["c"]⟩ := by cbv
  obtain ⟨_, hkept⟩ :=
    positions_survive_composition hparse "x\n\x7b\x7bprogram\x7d\x7d\n" none
  refine ⟨hparse, ?_, ?_⟩
  · rw [hkept.lines_text]
    cbv
  · have hmarker : 1 < lineCount "x\n\x7b\x7bprogram\x7d\x7d\n" := by cbv
    exact (hkept.in_main 1 hmarker).2

end Template

end Automation
