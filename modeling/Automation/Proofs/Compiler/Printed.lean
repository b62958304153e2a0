import Automation.Proofs.Compiler.Parsing

/-
Diagnostics that a compiler prints.

A diagnostic is written as an object in braces on one line, with no white space around it, so reading its
line gives it back.  A carriage return in front of a line feed is white space and goes with the rest of
it.  What a compiler prints is therefore read line by line: each line by itself says what comes of it.
-/

namespace Automation

namespace Text

/-- Nothing is dropped from what starts and ends with something else. -/
theorem stripEnds_of_ends {drop : Char → Bool} {first last : Char} (hfirst : drop first = false)
    (hlast : drop last = false) (cs : List Char) :
    stripEnds drop (first :: (cs ++ [last])) = first :: (cs ++ [last]) := by
  simp [stripEnds, hfirst, hlast]

/-- The carriage return behind a line is white space. -/
theorem trim_append_carriageReturn (line : String) : trim (line ++ "\r") = trim line := by
  rw [trim, trim, String.toList_append]
  exact congrArg String.ofList (stripEnds_append_singleton (by decide) line.toList)

/-- Texts without line feeds are the lines of the text that they are joined to. -/
theorem lines_unlines_of_notMem {ls : List String} (hne : ls ≠ [])
    (h : ∀ line ∈ ls, '\n' ∉ line.toList) : lines (unlines ls) = ls := by
  have hlines : ∀ line ∈ ls, lines line = [line] := fun line hline => by
    rw [lines, splitAt_of_notMem '\n' (h line hline), List.map_singleton, String.ofList_toList]
  rw [lines_unlines hne, List.flatMap_congr hlines, List.flatMap_singleton']

end Text

theorem FitsSigned.fitsWord {n : Int} (h : FitsSigned n) : Numeral.FitsWord n := by
  obtain ⟨hleast, hgreatest⟩ := h
  exact ⟨hleast, by omega⟩

namespace RawDiagnostic

variable {d : RawDiagnostic}

/-- The numbers of a diagnostic fit in signed words. -/
def Fits (d : RawDiagnostic) : Prop := FitsSigned d.line ∧ FitsSigned d.column

instance (d : RawDiagnostic) : Decidable d.Fits :=
  inferInstanceAs (Decidable (_ ∧ _))

/-- The members of a diagnostic, in the order of their names. -/
def members (d : RawDiagnostic) : List (String × Json) :=
  [ ("code", .text d.code), ("column", .integer d.column), ("line", .integer d.line)
  , ("message", .text d.message), ("warning", .boolean d.warning) ]

theorem madeOf_members (h : d.Fits) : d.MadeOf d.members where
  line := .inl rfl
  line_fits := h.1
  column := .inl rfl
  column_fits := h.2
  message := rfl
  code := .inl rfl
  warning := .inl rfl

/-- What is written of a diagnostic means its members. -/
theorem toJson?_toDocument (d : RawDiagnostic) :
    d.toJson.toDocument.toJson? Json.maxDepth = some (.object d.members) := rfl

theorem isExact_toJson (h : d.Fits) : d.toJson.IsExact := by
  refine .object fun member hmember => ?_
  simp only [List.mem_cons, List.not_mem_nil, or_false] at hmember
  rcases hmember with rfl | rfl | rfl | rfl | rfl
  · exact .integer (FitsSigned.fitsWord h.1)
  · exact .integer (FitsSigned.fitsWord h.2)
  · exact .text d.message
  · exact .text d.code
  · exact .boolean d.warning

/-- A diagnostic is written in braces. -/
theorem exists_toList_compact (d : RawDiagnostic) :
    ∃ cs, d.toJson.compact.toList = '\x7b' :: (cs ++ ['\x7d']) := by
  rw [Json.compact, String.toList_ofList, toJson, Json.render]
  simp only [← List.cons_append, ← List.append_assoc]
  exact ⟨_, rfl⟩

/-- There is no white space around a diagnostic. -/
theorem trim_compact (d : RawDiagnostic) : Text.trim d.toJson.compact = d.toJson.compact := by
  obtain ⟨cs, hcs⟩ := d.exists_toList_compact
  rw [Text.trim, hcs, Text.stripEnds_of_ends (by decide) (by decide), ← hcs, String.ofList_toList]

/-- A diagnostic is read back from the line that it is written to. -/
theorem ofLine?_compact (h : d.Fits) : ofLine? d.toJson.compact = some d := by
  obtain ⟨cs, hcs⟩ := d.exists_toList_compact
  have hvalue : Json.parse? d.toJson.compact = some (.object d.members) := by
    rw [Json.parse?, (isExact_toJson h).parse?_compact, Option.bind_some, toJson?_toDocument]
  have hnodup : (d.members.map Prod.fst).Nodup := by
    change ["code", "column", "line", "message", "warning"].Nodup
    decide
  have hd := (ofJson_ofDocument_eq_ok_iff hnodup).mpr (madeOf_members h)
  rw [ofLine?, hcs, if_pos List.head?_cons, hvalue, Option.bind_some, ofJson?, hd]

end RawDiagnostic

/-- A line that a compiler prints. -/
inductive Printed where
  | diagnostic (d : RawDiagnostic)
  | chatter (text : String)

namespace Printed

variable {line : Printed}

def text : Printed → String
  | diagnostic d => d.toJson.compact
  | chatter text => text

def diagnostic? : Printed → Option RawDiagnostic
  | diagnostic d => some d
  | chatter _ => none

/-- A diagnostic has numbers that fit in signed words, and chatter is one line without a message. -/
def Fits : Printed → Prop
  | diagnostic d => d.Fits
  | chatter text => '\n' ∉ text.toList ∧ ¬HasMessage (Text.trim text)

/-- The text of a line up to its line feed, with a carriage return or without. -/
def ended (line : Printed) (returns : Bool) : String :=
  if returns then line.text ++ "\r" else line.text

theorem trim_ended (line : Printed) (returns : Bool) :
    Text.trim (line.ended returns) = Text.trim line.text := by
  cases returns with
  | false => rfl
  | true => exact Text.trim_append_carriageReturn line.text

theorem Fits.ofLine?_text (h : line.Fits) :
    RawDiagnostic.ofLine? (Text.trim line.text) = line.diagnostic? := by
  cases line with
  | diagnostic d =>
      rw [text, RawDiagnostic.trim_compact, RawDiagnostic.ofLine?_compact h]
      rfl
  | chatter s =>
      have hnot : ¬IsDiagnosticLine s := fun hline => h.2 (isDiagnosticLine_iff.mp hline)
      rw [← RawDiagnostic.isSome_ofLine?_iff, Option.not_isSome_iff_eq_none] at hnot
      exact hnot

theorem Fits.lineFeed_notMem (h : line.Fits) (returns : Bool) : '\n' ∉ (line.ended returns).toList := by
  have htext : '\n' ∉ line.text.toList := by
    cases line with
    | diagnostic d =>
        rw [text, Json.compact, String.toList_ofList]
        exact Json.lineFeed_notMem_render _
    | chatter s => exact h.1
  cases returns with
  | false => exact htext
  | true => simp [ended, htext]

/-- What is read of the lines that a compiler prints is the diagnostics among them. -/
theorem parseDiagnostics_unlines {printed : List (Printed × Bool)} (h : ∀ line ∈ printed, line.1.Fits) :
    parseDiagnostics (Text.unlines (printed.map fun line => line.1.ended line.2)) =
      printed.filterMap fun line => line.1.diagnostic? := by
  cases printed with
  | nil => decide
  | cons first more =>
      have hfeeds : ∀ text ∈ (first :: more).map fun line => line.1.ended line.2, '\n' ∉ text.toList := by
        intro text htext
        obtain ⟨line, hline, rfl⟩ := List.mem_map.mp htext
        exact (h line hline).lineFeed_notMem line.2
      have hread : ∀ line ∈ first :: more,
          RawDiagnostic.ofLine? (Text.trim (line.1.ended line.2)) = line.1.diagnostic? := by
        intro line hline
        rw [trim_ended, (h line hline).ofLine?_text]
      have hne : (first :: more).map (fun line => line.1.ended line.2) ≠ [] := by simp
      rw [parseDiagnostics_eq, Text.lines_unlines_of_notMem hne hfeeds, List.filterMap_map,
        Function.comp_def]
      exact List.filterMap_congr hread

end Printed

/-- **Diagnostics are read line by line.**  There is one diagnostic for each line that is an object with a
text for a message, in the order of the lines; it is told by its line, and by no other diagnostic would
the line be told as well.  So what a compiler prints is read as the diagnostics that it prints, whatever
chatter there is between them and whether its lines end with a carriage return. -/
theorem diagnostics_are_read_line_by_line :
    (∀ stdout : String, List.Forall₂ (fun line d => RawDiagnostic.IsToldBy d line)
      ((Text.lines stdout).filter fun line => IsDiagnosticLine line) (parseDiagnostics stdout)) ∧
    (∀ (line : String) (d other : RawDiagnostic), d.IsToldBy line → other.IsToldBy line → d = other) ∧
    ∀ printed : List (Printed × Bool), (∀ line ∈ printed, line.1.Fits) →
      parseDiagnostics (Text.unlines (printed.map fun line => line.1.ended line.2)) =
        printed.filterMap fun line => line.1.diagnostic? := by
  refine ⟨fun stdout => ?_, fun line d other h h' => h.unique h', fun printed h =>
    Printed.parseDiagnostics_unlines h⟩
  rw [parseDiagnostics_eq]
  exact forall₂_filterMap (fun line => RawDiagnostic.isSome_ofLine?_iff)
    (fun line d h => (RawDiagnostic.isToldBy_of_ofLine? h).2) (Text.lines stdout)

section Lamp

/-- The compiler of the lamp greets, warns, and ends its lines in two ways. -/
def lampPrints : List (Printed × Bool) :=
  [ (.chatter "scriptc", true), (.diagnostic ⟨2, 1, "dim", "W1", true⟩, true)
  , (.chatter "\x7b\"on\":1\x7d", false), (.diagnostic ⟨-1, 0, "\n", "", false⟩, false)
  , (.chatter "", false) ]

theorem diagnostics_of_the_lamp_are_read :
    (∀ line ∈ lampPrints, line.1.Fits) ∧
      parseDiagnostics (Text.unlines (lampPrints.map fun line => line.1.ended line.2)) =
        [⟨2, 1, "dim", "W1", true⟩, ⟨-1, 0, "\n", "", false⟩] := by
  have hgreeting : ¬HasMessage (Text.trim "scriptc") := by
    rw [← isDiagnosticLine_iff]
    decide +kernel
  have hobject : ¬HasMessage (Text.trim "\x7b\"on\":1\x7d") := by
    rw [← isDiagnosticLine_iff]
    decide +kernel
  have hempty : ¬HasMessage (Text.trim "") := by
    rw [← isDiagnosticLine_iff]
    decide +kernel
  have hfits : ∀ line ∈ lampPrints, line.1.Fits := by
    intro line hline
    simp only [lampPrints, List.mem_cons, List.not_mem_nil, or_false] at hline
    rcases hline with rfl | rfl | rfl | rfl | rfl
    · exact ⟨by decide, hgreeting⟩
    · exact show RawDiagnostic.Fits _ by decide
    · exact ⟨by decide, hobject⟩
    · exact show RawDiagnostic.Fits _ by decide
    · exact ⟨by decide, hempty⟩
  exact ⟨hfits, diagnostics_are_read_line_by_line.2.2 lampPrints hfits⟩

end Lamp

end Automation
