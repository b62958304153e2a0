import Automation.Compiler.Command
import Automation.Proofs.Capture
import Automation.Proofs.Compiler.Decoding

/-
Problems in the output of a compiler.

A line tells of a problem when it is an object with a text for a message that is not well formed as a
diagnostic that only warns.  The diagnostics that are read from some octets have an error exactly when
one of their lines tells of a problem.

Of octets that are cut short, the lines that end before the cut are told apart as they would be in the
whole, wherever the cut is.
-/

namespace Automation

namespace Document

variable {fuel : Nat} {cs rest : List Char}

theorem isBlank_of_isSpace {c : Char} (h : isSpace c = true) : Text.isBlank c = true := by
  simp only [isSpace, Bool.or_eq_true, beq_iff_eq] at h
  rcases h with ((rfl | rfl) | rfl) | rfl <;> decide

/-- A document in braces is an object. -/
theorem exists_members_of_value? {document : Document}
    (h : value? fuel ('\x7b' :: cs) = some (document, rest)) :
    ∃ members, document = .object members := by
  cases fuel with
  | zero => simp [value?] at h
  | succ fuel =>
      have hskip : skipSpace ('\x7b' :: cs) = '\x7b' :: cs := rfl
      simp only [value?, hskip] at h
      split at h
      · cases h
        exact ⟨[], rfl⟩
      · obtain ⟨found, _, hfound⟩ := Option.map_eq_some_iff.mp h
        cases hfound
        exact ⟨_, rfl⟩

/-- An object is written in braces. -/
theorem exists_brace_of_value? {members : List (Option String × Document)}
    (h : value? fuel cs = some (.object members, rest)) :
    ∃ more, skipSpace cs = '\x7b' :: more := by
  cases fuel with
  | zero => simp [value?] at h
  | succ fuel =>
      simp only [value?] at h
      split at h
      case h_5 => split at h <;> simp at h
      case h_6 hbrace => exact ⟨_, hbrace⟩
      all_goals simp at h

theorem exists_object_of_toJson? {depth : Nat} {document : Document}
    {members : List (String × Json)} (h : document.toJson? depth = some (.object members)) :
    ∃ written, document = .object written := by
  cases document with
  | object written => exact ⟨written, rfl⟩
  | array items =>
      cases depth with
      | zero => simp [toJson?] at h
      | succ depth => simp [toJson?] at h
  | _ => simp [toJson?] at h

theorem exists_members_of_toJson? {depth : Nat} {members : List (Option String × Document)}
    {value : Json} (h : (object members).toJson? depth = some value) :
    ∃ values, value = .object values := by
  cases depth with
  | zero => simp [toJson?] at h
  | succ depth =>
      simp only [toJson?, Option.bind_eq_bind, Option.bind_eq_some_iff] at h
      obtain ⟨values, _, hvalue⟩ := h
      cases hvalue
      exact ⟨_, rfl⟩

end Document

namespace Json

theorem parse?_eq_some {line : String} {value : Json} (h : parse? line = some value) :
    ∃ document rest, Document.value? (line.toList.length + 1) line.toList = some (document, rest) ∧
      document.toJson? maxDepth = some value := by
  simp only [parse?, Document.parse?, Option.bind_eq_bind, Option.bind_eq_some_iff] at h
  obtain ⟨document, ⟨found, hfound, hdone⟩, hvalue⟩ := h
  obtain rfl : found.1 = document := by
    split at hdone
    · exact Option.some.inj hdone
    · cases hdone
  exact ⟨found.1, found.2, hfound, hvalue⟩

/-- What starts with a brace is an object. -/
theorem exists_members_of_parse? {line : String} {value : Json}
    (hbrace : line.toList.head? = some '\x7b') (h : parse? line = some value) :
    ∃ members, value = .object members := by
  obtain ⟨document, rest, hread, hvalue⟩ := parse?_eq_some h
  obtain ⟨more, hmore⟩ := List.head?_eq_some_iff.mp hbrace
  rw [hmore] at hread
  obtain ⟨members, rfl⟩ := Document.exists_members_of_value? hread
  exact Document.exists_members_of_toJson? hvalue

/-- An object without blanks before it starts with a brace. -/
theorem head?_of_parse? {line : String} {members : List (String × Json)}
    (hblank : ∀ c, line.toList.head? = some c → Text.isBlank c = false)
    (h : parse? line = some (.object members)) : line.toList.head? = some '\x7b' := by
  obtain ⟨document, rest, hread, hvalue⟩ := parse?_eq_some h
  obtain ⟨written, rfl⟩ := Document.exists_object_of_toJson? hvalue
  obtain ⟨more, hmore⟩ := Document.exists_brace_of_value? hread
  cases hcs : line.toList with
  | nil => simp [hcs, Document.skipSpace] at hmore
  | cons c cs =>
      have hspace : Document.isSpace c = false := by
        have hc := hblank c (by simp [hcs])
        exact Bool.eq_false_iff.mpr fun hspace =>
          absurd (Document.isBlank_of_isSpace hspace) (by simp [hc])
      simp only [hcs, Document.skipSpace, List.dropWhile_cons, hspace] at hmore
      simpa using congrArg List.head? hmore

end Json

namespace Text

/-- Nothing that is dropped from the ends is left at the start. -/
theorem head?_stripEnds {drop : Char → Bool} {cs : List Char} {c : Char}
    (h : (stripEnds drop cs).head? = some c) : drop c = false := by
  have hstart : stripEnds drop cs <+: cs.dropWhile drop := by
    have hend := List.dropWhile_suffix drop (l := (cs.dropWhile drop).reverse)
    rw [← List.reverse_prefix, List.reverse_reverse] at hend
    exact hend
  obtain ⟨dropped, hdropped⟩ := hstart
  have hhead := List.head?_dropWhile_not drop cs
  rw [← hdropped, List.head?_append, h] at hhead
  exact hhead

end Text

namespace RawDiagnostic

/-- A line tells of a problem: it is an object with a text for its message, and not a well-formed
diagnostic that only warns. -/
def IsProblem (line : String) : Prop :=
  ∃ members message, Json.parse? line = some (.object members) ∧
    members.lookup "message" = some (.text message) ∧
    ∀ d, Decoded.ofJson ofDocument (.object members) = .ok d → d.warning = false

theorem eq_of_setField {α ρ : Type} {read : Document → Decoded α} {put : α → ρ → ρ}
    {document : Document} {known now : ρ} (h : setField read put document known = .ok now) :
    ∃ value, read document = .ok value ∧ now = put value known := by
  rw [setField] at h
  cases hread : read document with
  | error e => simp [hread, Except.map] at h
  | ok value =>
      rw [hread] at h
      cases h
      exact ⟨value, rfl, rfl⟩

/-- Only the field of its name changes the message. -/
theorem message_of_read {name : String} {read : Document → Option String × RawDiagnostic →
    Decoded (Option String × RawDiagnostic)} (hread : record.fields.lookup name = some read)
    (hname : name ≠ "message") {document : Document} {known now : Option String × RawDiagnostic}
    (h : read document known = .ok now) : now.1 = known.1 := by
  have hfield : (name, read) ∈ record.fields := by
    obtain ⟨before, after, hfields, -⟩ := List.lookup_eq_some_iff.mp hread
    simp [hfields]
  simp only [record, List.mem_cons, Prod.mk.injEq, List.not_mem_nil, or_false, hname, false_and,
    false_or] at hfield
  rcases hfield with ⟨-, rfl⟩ | ⟨-, rfl⟩ | ⟨-, rfl⟩ | ⟨-, rfl⟩
  all_goals
    obtain ⟨value, -, rfl⟩ := eq_of_setField h
    rfl

/-- A document that is read as a text is one. -/
theorem eq_text_of_asText {value : Json} {text : String}
    (h : value.toDocument.asText = .ok text) : value = .text text := by
  cases value <;> simp [Json.toDocument, Document.asText, Document.refuse] at h
  rw [h]

/-- A diagnostic that has come to a message has found it as a text. -/
theorem exists_message_of_readMembers {members : List (String × Json)} {seen : List String}
    {known now : Option String × RawDiagnostic}
    (h : record.readMembers (Json.toMembers members) seen known = .ok now)
    (hnow : now.1 ≠ none) : known.1 ≠ none ∨ ∃ message,
      members.lookup "message" = some (.text message) := by
  induction members generalizing seen known with
  | nil =>
      cases h
      exact .inl hnow
  | cons member rest ih =>
      obtain ⟨name, value⟩ := member
      by_cases hname : name = "message"
      · subst hname
        rw [Json.toMembers, Record.readMembers] at h
        obtain ⟨put, hlookup⟩ : ∃ put, record.fields.lookup "message" =
          some (setField Document.asText put) := ⟨_, rfl⟩
        simp only [hlookup] at h
        split at h
        · cases h
        · split at h
          · cases h
          · next known' hknown =>
            obtain ⟨text, htext, -⟩ := eq_of_setField hknown
            exact .inr ⟨text, by simp [eq_text_of_asText htext]⟩
      · rw [List.lookup_cons, beq_eq_false_iff_ne.mpr (Ne.symm hname)]
        rw [Json.toMembers, Record.readMembers] at h
        split at h
        · exact ih h
        · next read hread =>
          split at h
          · cases h
          · split at h
            · cases h
            · next known' hknown =>
              rw [← message_of_read hread hname hknown]
              exact ih h

/-- The text for the message of a well-formed diagnostic. -/
theorem exists_message_of_ofDocument {members : List (String × Json)} {d : RawDiagnostic}
    (h : Decoded.ofJson ofDocument (.object members) = .ok d) :
    ∃ message, members.lookup "message" = some (.text message) := by
  rw [Decoded.ofJson, Json.toDocument, ofDocument] at h
  split at h
  · cases h
  · next message found inArray hread =>
    rw [Record.read] at hread
    cases hmembers : record.readMembers (Json.toMembers members) [] (none, ⟨0, 0, "", "", false⟩) with
    | error e => simp [hmembers, Except.map] at hread
    | ok known =>
        rw [hmembers] at hread
        cases hread
        have hnow : (message, found).1 ≠ none := by
          rintro rfl
          cases h
        exact (exists_message_of_readMembers hmembers hnow).resolve_left fun hne => hne rfl

theorem ofLine?_eq_some_iff {line : String}
    (hblank : ∀ c, line.toList.head? = some c → Text.isBlank c = false) :
    (∃ d, ofLine? line = some d ∧ d.warning = false) ↔ IsProblem line := by
  constructor
  · rintro ⟨d, hd, hwarning⟩
    rw [ofLine?] at hd
    split at hd
    · next hbrace =>
      obtain ⟨value, hvalue, hd⟩ := Option.bind_eq_some_iff.mp hd
      obtain ⟨members, rfl⟩ := Json.exists_members_of_parse? hbrace hvalue
      rw [ofJson?] at hd
      split at hd
      · next found hfound =>
        cases hd
        obtain ⟨message, hmessage⟩ := exists_message_of_ofDocument hfound
        refine ⟨members, message, hvalue, hmessage, fun other hother => ?_⟩
        rw [hfound] at hother
        cases hother
        exact hwarning
      · next hrefused =>
        obtain ⟨message, hmessage, -⟩ := Option.map_eq_some_iff.mp hd
        refine ⟨members, message, hvalue, ?_, fun other hother => ?_⟩
        · rw [message?, Json.get?] at hmessage
          split at hmessage
          · next text htext =>
            cases hmessage
            exact htext
          · cases hmessage
        · rw [hrefused] at hother
          cases hother
    · cases hd
  · rintro ⟨members, message, hvalue, hmessage, hwarning⟩
    have hbrace := Json.head?_of_parse? hblank hvalue
    rw [ofLine?, if_pos hbrace, hvalue, Option.bind_some, ofJson?]
    split
    · next d hd => exact ⟨d, rfl, hwarning d hd⟩
    · exact ⟨malformed message, by simp [message?, Json.get?, hmessage], rfl⟩

end RawDiagnostic

/-- Some line of the octets tells of a problem. -/
def Reports (stdout : ByteArray) : Prop :=
  ∃ line ∈ Text.lines (Text.lossy stdout), RawDiagnostic.IsProblem (Text.trim line)

theorem head?_trim {line : String} {c : Char} (h : (Text.trim line).toList.head? = some c) :
    Text.isBlank c = false := by
  rw [Text.trim, String.toList_ofList] at h
  exact Text.head?_stripEnds h

theorem hasErrors_parseDiagnostics_iff (stdout : ByteArray) :
    hasErrors (parseDiagnostics (Text.lossy stdout)) = true ↔ Reports stdout := by
  simp only [hasErrors, parseDiagnostics, List.any_eq_true, List.mem_filterMap, List.mem_map,
    Bool.not_eq_true', Reports]
  constructor
  · rintro ⟨d, ⟨_, ⟨line, hline, rfl⟩, hd⟩, hwarning⟩
    exact ⟨line, hline, (RawDiagnostic.ofLine?_eq_some_iff fun _ => head?_trim).mp ⟨d, hd, hwarning⟩⟩
  · rintro ⟨line, hline, hproblem⟩
    obtain ⟨d, hd, hwarning⟩ :=
      (RawDiagnostic.ofLine?_eq_some_iff fun _ => head?_trim).mpr hproblem
    exact ⟨d, ⟨_, ⟨line, hline, rfl⟩, hd⟩, hwarning⟩

/-- What may follow whole lines: nothing, or another line. -/
def FollowsLines (after : ByteArray) : Prop :=
  ∀ octet, after.data.toList.head? = some octet → octet = Text.lineFeed

/-- Some line that ends within the first octets tells of a problem. -/
def ReportsWithin (limit : Nat) (stdout : ByteArray) : Prop :=
  ∃ start after, stdout = start ++ after ∧ start.size ≤ limit ∧ FollowsLines after ∧ Reports start

theorem extract_eq_extract_min (bytes : ByteArray) (n : Nat) :
    bytes.extract 0 n = bytes.extract 0 (min n bytes.size) := by
  conv => lhs; rw [← ByteArray.extract_zero_size (b := bytes), ByteArray.extract_extract]
  simp

section Cut

variable {limit : Nat} {start after stdout : ByteArray}

/-- The lines of a start are lines of the whole, when it ends at the end of a line. -/
theorem mem_lines_append {line : String} (hafter : FollowsLines after)
    (h : line ∈ Text.lines (Text.lossy start)) :
    line ∈ Text.lines (Text.lossy (start ++ after)) := by
  rw [Text.lines_lossy] at h ⊢
  rw [ByteArray.toList_data_append]
  cases hrest : after.data.toList with
  | nil => rwa [List.append_nil]
  | cons octet rest =>
      obtain rfl : octet = Text.lineFeed := hafter octet (by simp [hrest])
      rw [Text.splitAt_append_cons, List.map_append]
      exact List.mem_append_left _ h

theorem Reports.append (h : Reports start) (hafter : FollowsLines after) :
    Reports (start ++ after) := by
  obtain ⟨line, hline, hproblem⟩ := h
  exact ⟨line, mem_lines_append hafter hline, hproblem⟩

theorem FollowsLines.extract (h : FollowsLines after) (count : Nat) :
    FollowsLines (after.extract 0 count) := by
  intro octet hoctet
  refine h octet ?_
  rw [ByteArray.data_extract, Array.toList_extract, List.extract_eq_take_drop, List.drop_zero,
    List.head?_take] at hoctet
  split at hoctet
  · cases hoctet
  · exact hoctet

/-- A problem in a line that ends within the limit is a problem of the octets within the limit. -/
theorem ReportsWithin.extract (h : ReportsWithin limit stdout) :
    Reports (stdout.extract 0 limit) := by
  obtain ⟨start, after, rfl, hsize, hafter, hreports⟩ := h
  have hstart : start.extract 0 limit = start := by
    rw [extract_eq_extract_min, Nat.min_eq_right hsize, ByteArray.extract_zero_size]
  rw [ByteArray.extract_append, hstart, Nat.zero_sub]
  exact hreports.append (hafter.extract _)

/-- When nothing is cut off, every line ends within the limit. -/
theorem Reports.within (h : Reports stdout) (hsize : stdout.size ≤ limit) :
    ReportsWithin limit stdout :=
  ⟨stdout, ByteArray.empty, ByteArray.append_empty.symm, hsize, fun _ hnone => (nomatch hnone), h⟩

end Cut

/-- However a stream arrives, its first octets up to the limit are kept. -/
theorem kept_capture (limit : Nat) (pieces : List ByteArray) :
    (capture limit pieces).kept = (Surroundings.joined pieces).extract 0 limit := by
  apply ByteArray.ext
  apply Array.toList_inj.mp
  rw [capture_eq_whole, ByteArray.data_extract, Array.toList_extract, List.extract_eq_take_drop,
    toList_joined]
  rfl

end Automation
