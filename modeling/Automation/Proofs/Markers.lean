import Automation.Proofs.Composition

/-
Which texts are templates.

A marker is looked for by its places, and what reading a text comes to depends on three numbers
only: how many lines are the one marker, how many are the other, and which of the two comes first.
A text that is read loses nothing, since it is the text composed from its own marker lines.
-/

namespace Automation.Template

/-- How many lines of a text are a marker. -/
def markerCount (marker text : String) : Nat := (Text.lines text).countP (isMarker marker)

/-- How many lines of a text come before the first that is a marker. -/
def markerIndex (marker text : String) : Nat := (Text.lines text).findIdx (isMarker marker)

/-- A text with one line for either marker, the program marker on the earlier. -/
structure IsTemplate (text : String) : Prop where
  program_once : markerCount programMarker text = 1
  condition_once : markerCount conditionMarker text = 1
  in_order : markerIndex programMarker text < markerIndex conditionMarker text

/-- The template and the text it was read from.  The lines in front of the main body and those
between the fragments are counted off the text, and the two marker lines put back as fragments
give the text again. -/
structure IsLossless (t : Template) (text : String) : Prop where
  mainOffset_eq : t.mainOffset = markerIndex programMarker text
  triggerOffset_eq : t.mainOffset + 1 + t.triggerOffset = markerIndex conditionMarker text
  compose_markers : ∃ program condition,
    (Text.lines text)[markerIndex programMarker text]? = some program ∧
      isMarker programMarker program = true ∧
      (Text.lines text)[markerIndex conditionMarker text]? = some condition ∧
      isMarker conditionMarker condition = true ∧
      (t.compose program (some condition)).text = text

/-! ### The places of a marker -/

section

variable {marker : String}

theorem markerPlaces_cons (line : String) (ls : List String) :
    markerPlaces marker (line :: ls) =
      (if isMarker marker line then [0] else []) ++ (markerPlaces marker ls).map (· + 1) := by
  simp only [markerPlaces, List.length_cons, List.range_succ_eq_map, List.filter_cons,
    List.filter_map, Function.comp_def, List.getElem?_cons_zero, List.getElem?_cons_succ,
    Option.map_some, Option.getD_some]
  split <;> rfl

theorem length_markerPlaces (ls : List String) :
    (markerPlaces marker ls).length = ls.countP (isMarker marker) := by
  induction ls with
  | nil => rfl
  | cons line rest ih =>
      rw [markerPlaces_cons, List.length_append, List.length_map, ih, List.countP_cons]
      split <;> simp [Nat.add_comm]

/-- The place of a marker that was found is that of its first line. -/
theorem findIdx_of_findMarker {ls : List String} {i : Nat} (h : findMarker marker ls = .ok i) :
    ls.findIdx (isMarker marker) = i := by
  obtain ⟨line, hline, hmarker, hunique⟩ := findMarker_unique h
  obtain ⟨hi, rfl⟩ := List.getElem?_eq_some_iff.mp hline
  rw [List.findIdx_eq hi]
  refine ⟨hmarker, fun j hj => ?_⟩
  have hother := List.getElem?_eq_getElem (Nat.lt_trans hj hi)
  exact isMarker_eq_false_of_findMarker h (Nat.ne_of_lt hj) hother

variable {text : String}

theorem findMarker_of_none (h : markerCount marker text = 0) :
    findMarker marker (Text.lines text) = .error (.missingMarker marker) := by
  rw [markerCount, ← length_markerPlaces, List.length_eq_zero_iff] at h
  rw [findMarker, h]

theorem findMarker_of_one (h : markerCount marker text = 1) :
    findMarker marker (Text.lines text) = .ok (markerIndex marker text) := by
  rw [markerCount, ← length_markerPlaces, List.length_eq_one_iff] at h
  obtain ⟨i, hi⟩ := h
  have hfound := findMarker_eq_ok_iff.mpr hi
  rw [markerIndex, findIdx_of_findMarker hfound, hfound]

theorem findMarker_of_many (h : 2 ≤ markerCount marker text) :
    findMarker marker (Text.lines text) = .error (.duplicateMarker marker) := by
  rw [markerCount, ← length_markerPlaces] at h
  rw [findMarker]
  split
  · next hnone => simp [hnone] at h
  · next hone => simp [hone] at h
  · rfl

/-- One line is not both markers. -/
theorem markerIndex_ne (hp : markerCount programMarker text = 1)
    (hc : markerCount conditionMarker text = 1) :
    markerIndex programMarker text ≠ markerIndex conditionMarker text := by
  intro heq
  obtain ⟨line, hline, hmarker, _⟩ := findMarker_unique (findMarker_of_one hp)
  obtain ⟨other, hother, hother', _⟩ := findMarker_unique (findMarker_of_one hc)
  rw [heq, hother, Option.some_inj] at hline
  subst hline
  rw [isMarker_programMarker_ne hmarker] at hother'
  cases hother'

end

/-! ### What reading a text comes to -/

section

variable {text : String}

theorem parse_of_program_error {e : TemplateError}
    (h : findMarker programMarker (Text.lines text) = .error e) : parse text = .error e := by
  simp only [parse, h]

/-- Once the program marker is found, all hangs on the condition marker. -/
theorem parse_of_condition_error {e : TemplateError} (hp : markerCount programMarker text = 1)
    (h : findMarker conditionMarker (Text.lines text) = .error e) : parse text = .error e := by
  simp only [parse, findMarker_of_one hp, h]

theorem parse_of_reversed (hp : markerCount programMarker text = 1)
    (hc : markerCount conditionMarker text = 1)
    (h : markerIndex conditionMarker text < markerIndex programMarker text) :
    parse text = .error .markersOutOfOrder := by
  simp only [parse, findMarker_of_one hp, findMarker_of_one hc, if_pos h]

theorem parse_of_isTemplate (h : IsTemplate text) : ∃ t, parse text = .ok t := by
  simp only [parse, findMarker_of_one h.program_once, findMarker_of_one h.condition_once,
    if_neg (Nat.not_lt.mpr (Nat.le_of_lt h.in_order))]
  exact ⟨_, rfl⟩

/-- The six ways a text is read, one for each combination of the numbers that matter. -/
inductive ParseCase (text : String) : Except TemplateError Template → Prop where
  | noProgram : markerCount programMarker text = 0 →
      ParseCase text (.error (.missingMarker programMarker))
  | manyPrograms : 2 ≤ markerCount programMarker text →
      ParseCase text (.error (.duplicateMarker programMarker))
  | noCondition : markerCount programMarker text = 1 → markerCount conditionMarker text = 0 →
      ParseCase text (.error (.missingMarker conditionMarker))
  | manyConditions : markerCount programMarker text = 1 →
      2 ≤ markerCount conditionMarker text →
      ParseCase text (.error (.duplicateMarker conditionMarker))
  | reversed : markerCount programMarker text = 1 → markerCount conditionMarker text = 1 →
      markerIndex conditionMarker text < markerIndex programMarker text →
      ParseCase text (.error .markersOutOfOrder)
  | template {t : Template} : IsTemplate text → ParseCase text (.ok t)

theorem parseCase (text : String) : ParseCase text (parse text) := by
  obtain hp | hp | hp : markerCount programMarker text = 0 ∨
      markerCount programMarker text = 1 ∨ 2 ≤ markerCount programMarker text := by omega
  · rw [parse_of_program_error (findMarker_of_none hp)]
    exact .noProgram hp
  · obtain hc | hc | hc : markerCount conditionMarker text = 0 ∨
        markerCount conditionMarker text = 1 ∨ 2 ≤ markerCount conditionMarker text := by omega
    · rw [parse_of_condition_error hp (findMarker_of_none hc)]
      exact .noCondition hp hc
    · rcases Nat.lt_or_gt_of_ne (markerIndex_ne hp hc) with h | h
      · have htemplate : IsTemplate text := ⟨hp, hc, h⟩
        obtain ⟨t, ht⟩ := parse_of_isTemplate htemplate
        rw [ht]
        exact .template htemplate
      · rw [parse_of_reversed hp hc h]
        exact .reversed hp hc h
    · rw [parse_of_condition_error hp (findMarker_of_many hc)]
      exact .manyConditions hp hc
  · rw [parse_of_program_error (findMarker_of_many hp)]
    exact .manyPrograms hp

/-- The first marker line is where those in front of it are none. -/
theorem findIdx_append_cons {marker line : String} {before : List String}
    (hbefore : ∀ other ∈ before, isMarker marker other = false)
    (hmarker : isMarker marker line = true) (after : List String) :
    (before ++ line :: after).findIdx (isMarker marker) = before.length := by
  induction before with
  | nil => simp [List.findIdx_cons, hmarker]
  | cons first rest ih =>
      simp only [List.forall_mem_cons] at hbefore
      simp [List.findIdx_cons, hbefore.1, ih hbefore.2]

theorem CutFrom.isLossless {t : Template} (h : t.CutFrom text) : t.IsLossless text := by
  obtain ⟨program, condition, hprogram, hcondition, hcut⟩ := h.cut
  have hpindex : markerIndex programMarker text = t.head.length := by
    rw [markerIndex, hcut, List.append_assoc, List.cons_append]
    exact findIdx_append_cons (fun line hline => (h.plain line (by simp [hline])).1) hprogram _
  have hcindex : markerIndex conditionMarker text = (t.head ++ program :: t.middle).length := by
    rw [markerIndex, hcut]
    refine findIdx_append_cons (fun line hline => ?_) hcondition _
    simp only [List.mem_append, List.mem_cons] at hline
    rcases hline with hline | rfl | hline
    · exact (h.plain line (by simp [hline])).2
    · exact isMarker_programMarker_ne hprogram
    · exact (h.plain line (by simp [hline])).2
  refine ⟨hpindex.symm, ?_, program, condition, ?_, hprogram, ?_, hcondition, ?_⟩
  · rw [hcindex, List.length_append, List.length_cons, mainOffset, triggerOffset]
    omega
  · rw [hpindex, hcut, List.append_assoc, List.cons_append]
    simp
  · rw [hcindex, hcut]
    simp
  · have hparts : t.head ++ [program] ++ t.middle ++ [condition] ++ t.tail =
        t.head ++ program :: t.middle ++ condition :: t.tail := by simp
    rw [compose, Option.getD_some, hparts, ← hcut, Text.unlines_lines]

/-- No two of the six ways have a text in common, so each result tells its numbers. -/
theorem ParseCase.numbers {r : Except TemplateError Template} (h : ParseCase text r) :
    ((∃ t, r = .ok t) ↔ IsTemplate text) ∧
      (r = .error (.missingMarker programMarker) ↔ markerCount programMarker text = 0) ∧
      (r = .error (.duplicateMarker programMarker) ↔ 2 ≤ markerCount programMarker text) ∧
      (r = .error (.missingMarker conditionMarker) ↔
        markerCount programMarker text = 1 ∧ markerCount conditionMarker text = 0) ∧
      (r = .error (.duplicateMarker conditionMarker) ↔
        markerCount programMarker text = 1 ∧ 2 ≤ markerCount conditionMarker text) ∧
      (r = .error .markersOutOfOrder ↔
        markerCount programMarker text = 1 ∧ markerCount conditionMarker text = 1 ∧
          markerIndex conditionMarker text < markerIndex programMarker text) := by
  have hne : programMarker ≠ conditionMarker := by decide
  have htemplate : IsTemplate text ↔ markerCount programMarker text = 1 ∧
      markerCount conditionMarker text = 1 ∧
      markerIndex programMarker text < markerIndex conditionMarker text :=
    ⟨fun h => ⟨h.program_once, h.condition_once, h.in_order⟩, fun h => ⟨h.1, h.2.1, h.2.2⟩⟩
  cases h with
  | noProgram hp => simp [htemplate, hp, hne]
  | manyPrograms hp => simp [htemplate, hne]; omega
  | noCondition hp hc => simp [htemplate, hp, hc, hne.symm]
  | manyConditions hp hc => simp [htemplate, hp, hne.symm]; omega
  | reversed hp hc h => simp [htemplate, hp, hc]; omega
  | template h =>
      have := htemplate.mp h
      simp [h]
      omega

/-- Whatever the text: it is read exactly when it has one line for either marker in the right
order, and otherwise the fault is the first of the five in their order.  What is read loses
nothing of the text. -/
theorem templates_are_read_exactly (text : String) :
    ((∃ t, parse text = .ok t) ↔ IsTemplate text) ∧
      (parse text = .error (.missingMarker programMarker) ↔
        markerCount programMarker text = 0) ∧
      (parse text = .error (.duplicateMarker programMarker) ↔
        2 ≤ markerCount programMarker text) ∧
      (parse text = .error (.missingMarker conditionMarker) ↔
        markerCount programMarker text = 1 ∧ markerCount conditionMarker text = 0) ∧
      (parse text = .error (.duplicateMarker conditionMarker) ↔
        markerCount programMarker text = 1 ∧ 2 ≤ markerCount conditionMarker text) ∧
      (parse text = .error .markersOutOfOrder ↔
        markerCount programMarker text = 1 ∧ markerCount conditionMarker text = 1 ∧
          markerIndex conditionMarker text < markerIndex programMarker text) ∧
      ∀ t, parse text = .ok t → t.IsLossless text := by
  obtain ⟨hok, hnoProgram, hmanyPrograms, hnoCondition, hmanyConditions, hreversed⟩ :=
    (parseCase text).numbers
  exact ⟨hok, hnoProgram, hmanyPrograms, hnoCondition, hmanyConditions, hreversed,
    fun _ h => (cutFrom_of_parse h).isLossless⟩

/-- Markers on the first and on the last line, with white space and a carriage return around
them: both offsets are zero, and the marker lines give the text again. -/
theorem adjacent_markers_are_read :
    ∃ t, parse " \x7b\x7bprogram\x7d\x7d\r\n\t\x7b\x7bcondition\x7d\x7d" = .ok t ∧
      t.IsLossless " \x7b\x7bprogram\x7d\x7d\r\n\t\x7b\x7bcondition\x7d\x7d" ∧
      t.mainOffset = 0 ∧ t.triggerOffset = 0 := by
  have hread : parse " \x7b\x7bprogram\x7d\x7d\r\n\t\x7b\x7bcondition\x7d\x7d" =
      .ok ⟨[], [], []⟩ := by cbv
  obtain ⟨_, _, _, _, _, _, hlossless⟩ := templates_are_read_exactly
    " \x7b\x7bprogram\x7d\x7d\r\n\t\x7b\x7bcondition\x7d\x7d"
  exact ⟨_, hread, hlossless _ hread, rfl, rfl⟩

end

end Automation.Template
