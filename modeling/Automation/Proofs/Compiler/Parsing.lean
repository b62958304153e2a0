import Automation.Proofs.Compiler.Reporting
import Automation.Proofs.Json.Compact
import Automation.Proofs.Json.Records
import Automation.Proofs.Loading.Chatter

/-
Diagnostics, line by line.

The diagnostics in an output are those of its lines, in order.  A line has one exactly when it is an object
with a text for a message; the diagnostic has the members of the object, if those that it has are of
the right types, and is an error at no position if not.  So diagnostics that are written to lines are
read back, whatever chatter there is between them.
-/

namespace Automation

open Document (asInteger asText asBoolean)

/-- A number that a signed word holds. -/
def FitsSigned (n : Int) : Prop := -0x8000000000000000 ≤ n ∧ n ≤ 0x7fffffffffffffff

instance (n : Int) : Decidable (FitsSigned n) :=
  inferInstanceAs (Decidable (_ ∧ _))

namespace Json

variable {v : Json}

theorem asInteger_toDocument {n : Int} :
    v.toDocument.asInteger = .ok n ↔ v = .integer n ∧ FitsSigned n := by
  rw [integer, FitsSigned]
  cases v with
  | number found =>
      cases found with
      | double bits => simp [toDocument, asInteger, Document.asIntegerIn, Document.refuse]
      | integer m =>
          rw [toDocument, asInteger, Document.asIntegerIn]
          split
          · next hfits =>
            simp only [Except.ok.injEq, Json.number.injEq, Number.integer.injEq]
            exact ⟨fun h => ⟨h, h ▸ hfits⟩, And.left⟩
          · next hfits =>
            simp only [reduceCtorEq, Json.number.injEq, Number.integer.injEq, false_iff]
            rintro ⟨rfl, h⟩
            exact hfits h
  | _ => simp [toDocument, asInteger, Document.asIntegerIn, Document.refuse]

theorem asText_toDocument {s : String} : v.toDocument.asText = .ok s ↔ v = .text s := by
  cases v <;> simp [toDocument, asText, Document.refuse]

theorem asBoolean_toDocument {b : Bool} : v.toDocument.asBoolean = .ok b ↔ v = .boolean b := by
  cases v <;> simp [toDocument, asBoolean, Document.refuse]

end Json

namespace RawDiagnostic

/-- The member of that name has a value of a form, or there is none and the value is a blank. -/
def Holds {α : Type} (members : List (String × Json)) (name : String) (form : α → Json)
    (blank value : α) : Prop :=
  members.lookup name = some (form value) ∨ members.lookup name = none ∧ value = blank

/-- A diagnostic has the members of an object, and those that it has are of the right types. -/
structure MadeOf (d : RawDiagnostic) (members : List (String × Json)) : Prop where
  line : Holds members "line" .integer 0 d.line
  line_fits : FitsSigned d.line
  column : Holds members "column" .integer 0 d.column
  column_fits : FitsSigned d.column
  message : members.lookup "message" = some (.text d.message)
  code : Holds members "code" .text "" d.code
  warning : Holds members "warning" .boolean false d.warning

section Fields

variable {name : String} {read : Document → Option String × RawDiagnostic →
  Decoded (Option String × RawDiagnostic)} {document : Document}
  {known now : Option String × RawDiagnostic}

/-- What a field does when it is read. -/
inductive Reads (document : Document) (known : Option String × RawDiagnostic) :
    String → Option String × RawDiagnostic → Prop where
  | line {n : Int} (value : document.asInteger = .ok n) :
      Reads document known "line" (known.1, { known.2 with line := n })
  | column {n : Int} (value : document.asInteger = .ok n) :
      Reads document known "column" (known.1, { known.2 with column := n })
  | message {s : String} (value : document.asText = .ok s) :
      Reads document known "message" (some s, { known.2 with message := s })
  | code {s : String} (value : document.asText = .ok s) :
      Reads document known "code" (known.1, { known.2 with code := s })
  | warning {b : Bool} (value : document.asBoolean = .ok b) :
      Reads document known "warning" (known.1, { known.2 with warning := b })

theorem reads_iff (hread : record.fields.lookup name = some read) :
    read document known = .ok now ↔ Reads document known name now := by
  have hfield := Record.mem_fields_of_lookup hread
  simp only [record, List.mem_cons, Prod.mk.injEq, List.not_mem_nil, or_false] at hfield
  constructor
  · intro h
    rcases hfield with ⟨rfl, rfl⟩ | ⟨rfl, rfl⟩ | ⟨rfl, rfl⟩ | ⟨rfl, rfl⟩ | ⟨rfl, rfl⟩
    all_goals obtain ⟨value, hvalue, rfl⟩ := eq_of_setField h
    · exact .line hvalue
    · exact .column hvalue
    · exact .message hvalue
    · exact .code hvalue
    · exact .warning hvalue
  · intro h
    cases h
    all_goals simp_all [setField, Except.map]

theorem governs_of_reads {β : Type} {part : Option String × RawDiagnostic → β}
    {value : Document → Decoded β} (field : record.fields.lookup name ≠ none)
    (h : ∀ {document known other now}, Reads document known other now →
      if other = name then value document = .ok (part now) else part now = part known) :
    record.Governs name part value where
  field := field
  sets read document known now hread hnow := by
    have hpart := h ((reads_iff hread).mp hnow)
    rwa [if_pos rfl] at hpart
  keeps other read document known now hread hname hnow := by
    have hpart := h ((reads_iff hread).mp hnow)
    rwa [if_neg hname] at hpart

theorem governs_line : record.Governs "line" (fun known => known.2.line) asInteger :=
  governs_of_reads (by decide) fun h => by cases h <;> simp_all

theorem governs_column : record.Governs "column" (fun known => known.2.column) asInteger :=
  governs_of_reads (by decide) fun h => by cases h <;> simp_all

theorem governs_message : record.Governs "message" (fun known => (known.1, known.2.message))
    (fun document => (asText document).map fun s => (some s, s)) :=
  governs_of_reads (by decide) fun h => by cases h <;> simp_all [Except.map]

theorem governs_code : record.Governs "code" (fun known => known.2.code) asText :=
  governs_of_reads (by decide) fun h => by cases h <;> simp_all

theorem governs_warning : record.Governs "warning" (fun known => known.2.warning) asBoolean :=
  governs_of_reads (by decide) fun h => by cases h <;> simp_all

end Fields

section MadeOf

variable {members : List (String × Json)} {d : RawDiagnostic}

/-- A diagnostic before anything is read. -/
def blank : Option String × RawDiagnostic := (none, ⟨0, 0, "", "", false⟩)

/-- Reading an object as a diagnostic is reading its members, and finding a message. -/
theorem ofJson_ofDocument_iff :
    Decoded.ofJson ofDocument (.object members) = .ok d ↔
      ∃ message, record.readMembers (Json.toMembers members) [] blank = .ok (some message, d) := by
  rw [Decoded.ofJson, Json.toDocument, ofDocument, Record.read, ← blank]
  cases record.readMembers (Json.toMembers members) [] blank with
  | error e => simp [Except.map]
  | ok known =>
      obtain ⟨message | message, found⟩ := known <;> simp [Except.map, Record.required]

/-- What is read of a member, and a property of all values of its type and of the blank. -/
theorem holds_of_governs {α : Type} {name : String} {part : Option String × RawDiagnostic → α}
    {value : Document → Decoded α} {form : α → Json} {P : α → Prop}
    {now : Option String × RawDiagnostic} (hgoverns : record.Governs name part value)
    (hvalue : ∀ v : Json, ∀ a, value v.toDocument = .ok a → v = form a ∧ P a) (hblank : P (part blank))
    (h : record.readMembers (Json.toMembers members) [] blank = .ok now) :
    Holds members name form (part blank) (part now) ∧ P (part now) := by
  have hpart := hgoverns.part_of_readMembers h
  rw [Json.lookup_toMembers] at hpart
  rcases hpart with ⟨hnone, hsame⟩ | ⟨document, hsome, hdocument⟩
  · exact ⟨.inr ⟨by simpa using hnone, hsame⟩, hsame ▸ hblank⟩
  · obtain ⟨v, hv, rfl⟩ := Option.map_eq_some_iff.mp hsome
    obtain ⟨hform, hP⟩ := hvalue v _ hdocument
    exact ⟨.inl (hform ▸ hv), hP⟩

theorem madeOf_of_readMembers {message : String}
    (h : record.readMembers (Json.toMembers members) [] blank = .ok (some message, d)) :
    d.MadeOf members := by
  obtain ⟨hline, hline_fits⟩ := holds_of_governs governs_line
    (fun v n => Json.asInteger_toDocument.mp) (show FitsSigned 0 by decide) h
  obtain ⟨hcolumn, hcolumn_fits⟩ := holds_of_governs governs_column
    (fun v n => Json.asInteger_toDocument.mp) (show FitsSigned 0 by decide) h
  obtain ⟨hcode, -⟩ := holds_of_governs (P := fun _ => True) governs_code
    (fun v s hs => ⟨Json.asText_toDocument.mp hs, trivial⟩) trivial h
  obtain ⟨hwarning, -⟩ := holds_of_governs (P := fun _ => True) governs_warning
    (fun v b hb => ⟨Json.asBoolean_toDocument.mp hb, trivial⟩) trivial h
  have hmessage := governs_message.part_of_readMembers h
  rw [Json.lookup_toMembers] at hmessage
  refine ⟨hline, hline_fits, hcolumn, hcolumn_fits, ?_, hcode, hwarning⟩
  rcases hmessage with ⟨-, hsame⟩ | ⟨document, hsome, hdocument⟩
  · cases hsame
  · obtain ⟨v, hv, rfl⟩ := Option.map_eq_some_iff.mp hsome
    cases htext : asText v.toDocument with
    | error e => simp [htext, Except.map] at hdocument
    | ok s =>
        simp only [htext, Except.map, Except.ok.injEq, Prod.mk.injEq] at hdocument
        rw [hv, Json.asText_toDocument.mp htext, hdocument.2]

/-- A member that is there has the value of the diagnostic. -/
theorem Holds.eq_of_lookup {α : Type} {name : String} {form : α → Json} {default value : α} {v : Json}
    (h : Holds members name form default value) (hv : members.lookup name = some v) :
    v = form value := by
  rcases h with h | ⟨h, -⟩
  · exact Option.some.inj (hv.symm.trans h)
  · cases hv.symm.trans h

/-- Where a diagnostic has the members of an object, each of them can be read. -/
theorem MadeOf.exists_read (h : d.MadeOf members) {name : String} {v : Json}
    (hv : members.lookup name = some v) {read : Document → Option String × RawDiagnostic →
      Decoded (Option String × RawDiagnostic)} (hread : record.fields.lookup name = some read)
    (known : Option String × RawDiagnostic) : ∃ now, read v.toDocument known = .ok now := by
  have hfield := Record.mem_fields_of_lookup hread
  simp only [record, List.mem_cons, Prod.mk.injEq, List.not_mem_nil, or_false] at hfield
  rcases hfield with ⟨rfl, -⟩ | ⟨rfl, -⟩ | ⟨rfl, -⟩ | ⟨rfl, -⟩ | ⟨rfl, -⟩
  · exact ⟨_, (reads_iff hread).mpr (.line (Json.asInteger_toDocument.mpr
      ⟨h.line.eq_of_lookup hv, h.line_fits⟩))⟩
  · exact ⟨_, (reads_iff hread).mpr (.column (Json.asInteger_toDocument.mpr
      ⟨h.column.eq_of_lookup hv, h.column_fits⟩))⟩
  · exact ⟨_, (reads_iff hread).mpr (.message (Json.asText_toDocument.mpr
      (Option.some.inj (hv.symm.trans h.message))))⟩
  · exact ⟨_, (reads_iff hread).mpr (.code (Json.asText_toDocument.mpr
      (h.code.eq_of_lookup hv)))⟩
  · exact ⟨_, (reads_iff hread).mpr (.warning (Json.asBoolean_toDocument.mpr
      (h.warning.eq_of_lookup hv)))⟩

/-- Two values of the same member are the same. -/
theorem Holds.unique {α : Type} {name : String} {form : α → Json} {default value other : α}
    (hform : Function.Injective form) (h : Holds members name form default value)
    (h' : Holds members name form default other) : value = other := by
  rcases h with h | ⟨h, rfl⟩
  · exact hform (h'.eq_of_lookup h)
  · rcases h' with h' | ⟨-, rfl⟩
    · cases h.symm.trans h'
    · rfl

/-- An object makes at most one diagnostic. -/
theorem MadeOf.unique {other : RawDiagnostic} (h : d.MadeOf members) (h' : other.MadeOf members) :
    d = other := by
  have hinteger : Function.Injective Json.integer := fun m n heq => by
    simpa [Json.integer] using heq
  have htext : Function.Injective Json.text := fun s t heq => by simpa using heq
  have hboolean : Function.Injective Json.boolean := fun b c heq => by simpa using heq
  have hmessage : d.message = other.message :=
    htext (Option.some.inj (h.message.symm.trans h'.message))
  cases d
  cases other
  simp only [mk.injEq]
  exact ⟨h.line.unique hinteger h'.line, h.column.unique hinteger h'.column, hmessage,
    h.code.unique htext h'.code, h.warning.unique hboolean h'.warning⟩

/-- Where a diagnostic has the members of an object, they can be read one by one. -/
theorem MadeOf.exists_readMembers (h : d.MadeOf members) (hnodup : (members.map Prod.fst).Nodup) :
    ∃ now, record.readMembers (Json.toMembers members) [] blank = .ok now := by
  rw [Json.toMembers_eq_map]
  have hnames : ((members.map fun member => (member.1, member.2.toDocument)).map
      Prod.fst).Nodup := by
    rwa [List.map_map]
  refine Record.exists_readMembers hnames (by simp) fun member hmember read hread known => ?_
  obtain ⟨⟨name, v⟩, hmem, rfl⟩ := List.mem_map.mp hmember
  exact h.exists_read (Json.lookup_of_mem hnodup hmem) hread known

/-- A message that is there has been read. -/
theorem exists_message_of_lookup {now : Option String × RawDiagnostic} {v : Json}
    (hv : members.lookup "message" = some v)
    (h : record.readMembers (Json.toMembers members) [] blank = .ok now) :
    ∃ message, now.1 = some message := by
  have hmessage := governs_message.part_of_readMembers h
  rw [Json.lookup_toMembers, hv] at hmessage
  rcases hmessage with ⟨hnone, -⟩ | ⟨document, -, hdocument⟩
  · cases hnone
  · cases htext : asText document with
    | error e => simp [htext, Except.map] at hdocument
    | ok s =>
        simp only [htext, Except.map, Except.ok.injEq, Prod.mk.injEq] at hdocument
        exact ⟨s, hdocument.1.symm⟩

/-- An object with names of its own is read as a diagnostic exactly when it makes that diagnostic. -/
theorem ofJson_ofDocument_eq_ok_iff (hnodup : (members.map Prod.fst).Nodup) :
    Decoded.ofJson ofDocument (.object members) = .ok d ↔ d.MadeOf members := by
  rw [ofJson_ofDocument_iff]
  constructor
  · rintro ⟨message, h⟩
    exact madeOf_of_readMembers h
  · intro h
    obtain ⟨⟨found, read⟩, hnow⟩ := h.exists_readMembers hnodup
    obtain ⟨message, rfl⟩ := exists_message_of_lookup h.message hnow
    exact ⟨message, (madeOf_of_readMembers hnow).unique h ▸ hnow⟩

end MadeOf

/-- A line has that diagnostic: it is an object, and makes the diagnostic if it makes any, and otherwise has
a text for a message that the diagnostic only passes on. -/
def IsToldBy (d : RawDiagnostic) (line : String) : Prop :=
  ∃ members, Json.parse? (Text.trim line) = some (.object members) ∧
    (d.MadeOf members ∨ (∀ other : RawDiagnostic, ¬other.MadeOf members) ∧
      ∃ message, members.lookup "message" = some (.text message) ∧ d = ⟨0, 0, message, "-1", false⟩)

/-- A line tells of at most one diagnostic. -/
theorem IsToldBy.unique {line : String} {d other : RawDiagnostic} (h : d.IsToldBy line)
    (h' : other.IsToldBy line) : d = other := by
  obtain ⟨members, hvalue, hd⟩ := h
  obtain ⟨members', hvalue', hother⟩ := h'
  obtain rfl : members = members' := by simpa using hvalue.symm.trans hvalue'
  rcases hd with hd | ⟨hnone, message, hmessage, rfl⟩
  · rcases hother with hother | ⟨hnone, -⟩
    · exact hd.unique hother
    · exact absurd hd (hnone d)
  · rcases hother with hother | ⟨-, message', hmessage', rfl⟩
    · exact absurd hother (hnone other)
    · obtain rfl : message = message' := by simpa using hmessage.symm.trans hmessage'
      rfl

end RawDiagnostic

/-- A text is an object with a text for a message. -/
def HasMessage (source : String) : Prop :=
  ∃ members message, Json.parse? source = some (.object members) ∧
    members.lookup "message" = some (.text message)

/-- A line starts with a brace and is an object with a text for a message, up to white space. -/
def IsDiagnosticLine (line : String) : Prop :=
  (Text.trim line).toList.head? = some '\x7b' ∧ HasMessage (Text.trim line)

namespace RawDiagnostic

/-- The diagnostic of a line is told by it. -/
theorem isToldBy_of_ofLine? {line : String} {d : RawDiagnostic}
    (h : ofLine? (Text.trim line) = some d) : IsDiagnosticLine line ∧ d.IsToldBy line := by
  rw [ofLine?] at h
  split at h
  · next hbrace =>
    obtain ⟨value, hvalue, hd⟩ := Option.bind_eq_some_iff.mp h
    obtain ⟨members, rfl⟩ := Json.exists_members_of_parse? hbrace hvalue
    have hnodup := (Json.inOrder_of_parse? hvalue).nodup
    rw [ofJson?] at hd
    split at hd
    · next found hfound =>
      cases hd
      have hmade := (ofJson_ofDocument_eq_ok_iff hnodup).mp hfound
      exact ⟨⟨hbrace, members, d.message, hvalue, hmade.message⟩, members, hvalue, .inl hmade⟩
    · next e hrefused =>
      obtain ⟨message, hmessage, rfl⟩ := Option.map_eq_some_iff.mp hd
      have hlookup : members.lookup "message" = some (.text message) := by
        rw [message?, Json.get?] at hmessage
        split at hmessage
        · next text htext =>
          cases hmessage
          exact htext
        · cases hmessage
      refine ⟨⟨hbrace, members, message, hvalue, hlookup⟩, members, hvalue,
        .inr ⟨fun other hmade => ?_, message, hlookup, rfl⟩⟩
      rw [(ofJson_ofDocument_eq_ok_iff hnodup).mpr hmade] at hrefused
      cases hrefused
  · cases h

theorem isSome_ofLine?_iff {line : String} :
    (ofLine? (Text.trim line)).isSome = true ↔ IsDiagnosticLine line := by
  constructor
  · intro h
    obtain ⟨d, hd⟩ := Option.isSome_iff_exists.mp h
    exact (isToldBy_of_ofLine? hd).1
  · rintro ⟨hbrace, members, message, hvalue, hmessage⟩
    rw [ofLine?, if_pos hbrace, hvalue, Option.bind_some, ofJson?]
    split
    · rfl
    · simp [message?, Json.get?, hmessage]

end RawDiagnostic

instance : DecidablePred IsDiagnosticLine := fun _ =>
  decidable_of_iff _ RawDiagnostic.isSome_ofLine?_iff

/-- An object is in braces, so only its message has to be asked for. -/
theorem isDiagnosticLine_iff {line : String} :
    IsDiagnosticLine line ↔ HasMessage (Text.trim line) := by
  constructor
  · exact And.right
  · rintro ⟨members, message, hvalue, hmessage⟩
    exact ⟨Json.head?_of_parse? (fun c hc => head?_trim hc) hvalue, members, message, hvalue, hmessage⟩

/-- What is found in the elements of a list is about those in which something is found. -/
theorem forall₂_filterMap {α β : Type} {find : α → Option β} {R : α → β → Prop} {p : α → Prop}
    [DecidablePred p] (hp : ∀ a, (find a).isSome = true ↔ p a) (hR : ∀ a b, find a = some b → R a b)
    (as : List α) : List.Forall₂ R (as.filter p) (as.filterMap find) := by
  induction as with
  | nil => exact .nil
  | cons a rest ih =>
      cases hfind : find a with
      | none =>
          have hnot : ¬p a := fun h => by
            rw [← hp, hfind] at h
            cases h
          simpa [hnot, hfind] using ih
      | some b =>
          have hpa : p a := (hp a).mp (by rw [hfind]; rfl)
          simpa [hpa, hfind] using ⟨hR a b hfind, ih⟩

theorem parseDiagnostics_eq (stdout : String) : parseDiagnostics stdout =
    (Text.lines stdout).filterMap fun line => RawDiagnostic.ofLine? (Text.trim line) := by
  rw [parseDiagnostics, List.filterMap_map]
  rfl

end Automation
