import Automation.Proofs.Compiler.Printed
import Automation.Proofs.Json.Plain

/-
The types that cross a boundary.

A value of such a type is written as one object on one line, and the object is read back as the value.
Whatever text is read as the type, the value has numbers that fit their words and states that are
plain, so it can be written again and is still the same value.
-/

namespace Automation

open Document (asInteger asText asBoolean asList asOptional asJson)
open Json (FreeOfControls IsPlain IsWhole IsExact)

namespace Decoded

variable {α β : Type} {decoded : Decoded α} {b : β}

theorem exists_of_map {f : α → β} (h : decoded.map f = .ok b) : ∃ a, decoded = .ok a ∧ f a = b := by
  cases decoded with
  | error e => cases h
  | ok a => exact ⟨a, rfl, Except.ok.inj h⟩

theorem exists_of_bind {f : α → Decoded β} (h : decoded >>= f = .ok b) :
    ∃ a, decoded = .ok a ∧ f a = .ok b := by
  cases decoded with
  | error e => cases h
  | ok a => exact ⟨a, rfl, h⟩

end Decoded

namespace Record

variable {ρ α : Type} {record : Record ρ} {P : ρ → Prop} {known now : ρ}

/-- To read a field keeps a property of what is known. -/
def Keeps (P : ρ → Prop) (field : Document → ρ → Decoded ρ) : Prop :=
  ∀ document known now, document.FitsWords → P known → field document known = .ok now → P now

theorem keeps_setField {read : Document → Decoded α} {put : α → ρ → ρ}
    (h : ∀ document value known, document.FitsWords → read document = .ok value → P known →
      P (put value known)) : Keeps P (setField read put) := by
  intro document known now hdocument hknown hnow
  obtain ⟨value, hread, rfl⟩ := Decoded.exists_of_map hnow
  exact h document value known hdocument hread hknown

theorem keeps_readMembers (hfields : ∀ field ∈ record.fields, Keeps P field.2)
    {members : List (Option String × Document)} (hmembers : ∀ member ∈ members, member.2.FitsWords)
    {seen : List String} (hknown : P known)
    (h : record.readMembers members seen known = .ok now) : P now := by
  induction members generalizing seen known with
  | nil =>
      cases h
      exact hknown
  | cons member rest ih =>
      obtain ⟨other, document⟩ := member
      obtain ⟨hdocument, hrest⟩ := List.forall_mem_cons.mp hmembers
      obtain ⟨found, rfl, ⟨-, hread⟩ | ⟨read, next, hfield, -, hnext, hread⟩⟩ := readMembers_cons h
      · exact ih hrest hknown hread
      · have hkeeps := hfields _ (mem_fields_of_lookup hfield)
        exact ih hrest (hkeeps document known next hdocument hknown hnext) hread

theorem keeps_readItems {fields : List (String × (Document → ρ → Decoded ρ))}
    (hfields : ∀ field ∈ fields, Keeps P field.2) {items : List Document}
    (hitems : ∀ item ∈ items, item.FitsWords) (hknown : P known)
    (h : readItems fields items known = .ok now) : P now := by
  induction items generalizing fields known with
  | nil =>
      cases fields <;> cases h <;> exact hknown
  | cons document rest ih =>
      obtain ⟨hdocument, hrest⟩ := List.forall_mem_cons.mp hitems
      cases fields with
      | nil =>
          cases h
          exact hknown
      | cons field fields =>
          obtain ⟨hfirst, hothers⟩ := List.forall_mem_cons.mp hfields
          rw [readItems] at h
          split at h
          · cases h
          · next next hnext =>
            exact ih hothers hrest (hfirst document known next hdocument hknown hnext) h

/-- What every field keeps holds of a record, in whichever of its two forms it is read. -/
theorem keeps_read (hfields : ∀ field ∈ record.fields, Keeps P field.2) {document : Document}
    (hdocument : document.FitsWords) (hknown : P known) {inArray : Bool}
    (h : record.read known document = .ok (now, inArray)) : P now := by
  cases hdocument with
  | @object members hmembers =>
      obtain ⟨found, hread, hfound⟩ := Decoded.exists_of_map h
      cases hfound
      exact keeps_readMembers hfields hmembers hknown hread
  | @array items hitems =>
      rw [read] at h
      split at h
      · cases h
      · next found hread =>
        split at h
        · cases h
        · cases h
          exact keeps_readItems hfields hitems hknown hread
  | @number n hn => cases n <;> cases h
  | text t => cases t <;> cases h
  | _ => cases h

/-- The member of a field that is read for the first time is put into the record. -/
theorem readMembers_cons_setField {name : String} {read : Document → Decoded α} {put : α → ρ → ρ}
    {document : Document} {value : α} {members : List (Option String × Document)}
    {seen : List String} (hfield : record.fields.lookup name = some (setField read put))
    (hunseen : name ∉ seen) (hvalue : read document = .ok value) :
    record.readMembers ((some name, document) :: members) seen known =
      record.readMembers members (name :: seen) (put value known) := by
  rw [readMembers, hfield]
  dsimp only
  rw [if_neg hunseen, setField, hvalue]
  rfl

theorem readMembers_setField {name : String} {read : Document → Decoded α} {put : α → ρ → ρ}
    {v : Json} {value : α} {members : List (String × Json)} {seen : List String}
    (hfield : record.fields.lookup name = some (setField read put)) (hunseen : name ∉ seen)
    (hvalue : read v.toDocument = .ok value) :
    record.readMembers (Json.toMembers ((name, v) :: members)) seen known =
      record.readMembers (Json.toMembers members) (name :: seen) (put value known) :=
  readMembers_cons_setField hfield hunseen hvalue

theorem eq_some_of_required {name : String} {found : Option α} {value : α}
    (h : required name found = .ok value) : found = some value := by
  cases found with
  | none => cases h
  | some other =>
      cases h
      rfl

end Record

namespace Document

variable {α : Type} {document : Document}

theorem refuse_ne_ok {expected : String} {value : α} : document.refuse expected ≠ .ok value := by
  unfold refuse
  split <;> exact fun h => nomatch h

theorem fitsSigned_of_asInteger {n : Int} (h : document.asInteger = .ok n) : FitsSigned n := by
  rw [asInteger, asIntegerIn.eq_def] at h
  split at h
  · split at h
    · next hfits =>
      cases h
      exact hfits
    · cases h
  · exact absurd h refuse_ne_ok

theorem forall₂_of_mapM {read : Document → Decoded α} {items : List Document} {values : List α}
    (h : items.mapM read = .ok values) :
    List.Forall₂ (fun item value => read item = .ok value) items values := by
  induction items generalizing values with
  | nil =>
      cases h
      exact .nil
  | cons item rest ih =>
      rw [List.mapM_cons] at h
      obtain ⟨value, hvalue, h⟩ := Decoded.exists_of_bind h
      obtain ⟨others, hothers, h⟩ := Decoded.exists_of_bind h
      cases h
      exact .cons hvalue (ih hothers)

/-- Values that are read back one by one are read back as a list. -/
theorem asList_toDocument {read : Document → Decoded α} {toJson : α → Json} {values : List α}
    (h : ∀ value ∈ values, read (toJson value).toDocument = .ok value) :
    (Json.array (values.map toJson)).toDocument.asList read = .ok values := by
  rw [Json.toDocument, asList]
  induction values with
  | nil => rfl
  | cons value rest ih =>
      rw [List.forall_mem_cons] at h
      rw [List.map_cons, Json.toDocuments, List.mapM_cons, h.1, ih h.2]
      rfl

/-- Each element of a list that was read has an item of its own. -/
theorem exists_item_of_asList {read : Document → Decoded α} {values : List α}
    (hdocument : document.FitsWords) (h : document.asList read = .ok values) {value : α}
    (hvalue : value ∈ values) : ∃ item : Document, item.FitsWords ∧ read item = .ok value := by
  rw [asList.eq_def] at h
  split at h
  · next items =>
    cases hdocument with
    | array hitems =>
        obtain ⟨item, hitem, hread⟩ := exists_partner (forall₂_of_mapM h) hvalue
        exact ⟨item, hitems item hitem, hread⟩
  · exact absurd h refuse_ne_ok

theorem asInteger_integer {n : Int} (h : FitsSigned n) :
    (Json.integer n).toDocument.asInteger = .ok n :=
  Json.asInteger_toDocument.mpr ⟨rfl, h⟩

theorem asText_text (s : String) : (Json.text s).toDocument.asText = .ok s := rfl

theorem asBoolean_boolean (b : Bool) : (Json.boolean b).toDocument.asBoolean = .ok b := rfl

theorem asOptional_ofText? (s : Option String) :
    (Json.ofText? s).toDocument.asOptional asText = .ok s := by
  cases s <;> rfl

/-- A plain value is read back as any value. -/
theorem asJson_toDocument {around : Nat} {v : Json} (h : v.IsPlain (Json.maxDepth - around)) :
    v.toDocument.asJson around = .ok v := by
  rw [asJson, h.toJson?_toDocument]

/-- A value that was read as any value is plain where it has no double. -/
theorem isPlain_of_asJson {around : Nat} {v : Json} (hdocument : document.FitsWords)
    (h : document.asJson around = .ok v) (hwhole : v.IsWhole) : v.IsPlain (Json.maxDepth - around) := by
  rw [asJson] at h
  split at h
  · next found hfound =>
    cases h
    exact hdocument.isPlain hfound hwhole
  · cases h

end Document

/-- The values of a type that are written are on one line each and are read back, and so are those values
that were read from any text at all. -/
structure Survives {α : Type} (toJson : α → Json) (read : Document → Decoded α)
    (Fits Accepted : α → Prop) : Prop where
  unbroken : ∀ x, Fits x → FreeOfControls (toJson x).compact.toList
  restored : ∀ x, Fits x → Decoded.ofText read (toJson x).compact = .ok x
  again : ∀ source x, Decoded.ofText read source = .ok x → Accepted x →
    FreeOfControls (toJson x).compact.toList ∧ Decoded.ofText read (toJson x).compact = .ok x

theorem Survives.of_fits {α : Type} {toJson : α → Json} {read : Document → Decoded α}
    {Fits Accepted : α → Prop} (hexact : ∀ x, Fits x → (toJson x).IsExact)
    (hread : ∀ x, Fits x → read (toJson x).toDocument = .ok x)
    (hfits : ∀ document x, document.FitsWords → read document = .ok x → Accepted x → Fits x) :
    Survives toJson read Fits Accepted := by
  have hunbroken : ∀ x, Fits x → FreeOfControls (toJson x).compact.toList := by
    intro x hx
    rw [Json.compact, String.toList_ofList]
    exact Json.freeOfControls_render (toJson x)
  have hrestored : ∀ x, Fits x → Decoded.ofText read (toJson x).compact = .ok x := by
    intro x hx
    rw [Decoded.ofText, (hexact x hx).parse?_compact]
    exact hread x hx
  refine ⟨hunbroken, hrestored, fun source x hsource haccepted => ?_⟩
  rw [Decoded.ofText] at hsource
  split at hsource
  · next document hdocument =>
    have hx := hfits document x (Document.fitsWords_of_parse? hdocument) hsource haccepted
    exact ⟨hunbroken x hx, hrestored x hx⟩
  · cases hsource

namespace RawDiagnostic

theorem ofDocument_toDocument {d : RawDiagnostic} (h : d.Fits) :
    ofDocument d.toJson.toDocument = .ok d := by
  rw [ofDocument, toJson, Json.toDocument, Record.read,
    Record.readMembers_setField rfl (by decide) (Document.asInteger_integer h.1),
    Record.readMembers_setField rfl (by decide) (Document.asInteger_integer h.2),
    Record.readMembers_setField rfl (by decide) (Document.asText_text d.message),
    Record.readMembers_setField rfl (by decide) (Document.asText_text d.code),
    Record.readMembers_setField rfl (by decide) (Document.asBoolean_boolean d.warning)]
  rfl

theorem fits_of_ofDocument {document : Document} {d : RawDiagnostic} (hdocument : document.FitsWords)
    (h : ofDocument document = .ok d) : d.Fits := by
  have hfields : ∀ field ∈ record.fields,
      Record.Keeps (fun known : Option String × RawDiagnostic => known.2.Fits) field.2 := by
    intro field hfield
    simp only [record, List.mem_cons, List.not_mem_nil, or_false] at hfield
    rcases hfield with rfl | rfl | rfl | rfl | rfl
    · exact Record.keeps_setField fun _ n known _ hn hknown =>
        ⟨Document.fitsSigned_of_asInteger hn, hknown.2⟩
    · exact Record.keeps_setField fun _ n known _ hn hknown =>
        ⟨hknown.1, Document.fitsSigned_of_asInteger hn⟩
    all_goals exact Record.keeps_setField fun _ _ _ _ _ hknown => hknown
  rw [ofDocument] at h
  split at h
  · cases h
  · next message found inArray hread =>
    have hfound := Record.keeps_read hfields hdocument (by decide) hread
    obtain ⟨_, -, rfl⟩ := Decoded.exists_of_map h
    exact hfound

theorem survives :
    Survives toJson ofDocument Fits fun _ => True :=
  .of_fits (fun _ => isExact_toJson) (fun _ => ofDocument_toDocument)
    fun _ _ hdocument h _ => fits_of_ofDocument hdocument h

end RawDiagnostic

namespace ProgramError

/-- The numbers of an error fit in signed words. -/
def Fits (e : ProgramError) : Prop := FitsSigned e.line ∧ FitsSigned e.column

theorem isExact_toJson {e : ProgramError} (h : e.Fits) : e.toJson.IsExact := by
  refine .object fun member hmember => ?_
  simp only [List.mem_cons, List.not_mem_nil, or_false] at hmember
  rcases hmember with rfl | rfl | rfl | rfl | rfl
  · exact .integer h.1.fitsWord
  · exact .integer h.2.fitsWord
  all_goals exact .text _

theorem ofDocument_block (b : CodeBlock) : CodeBlock.ofDocument b.toJson.toDocument = .ok b := by
  cases b <;> rfl

theorem ofDocument_toDocument {e : ProgramError} (h : e.Fits) :
    ofDocument e.toJson.toDocument = .ok e := by
  rw [ofDocument, toJson, Json.toDocument, Record.read,
    Record.readMembers_setField rfl (by decide) (Document.asInteger_integer h.1),
    Record.readMembers_setField rfl (by decide) (Document.asInteger_integer h.2),
    Record.readMembers_setField rfl (by decide) (Document.asText_text e.message),
    Record.readMembers_setField rfl (by decide) (Document.asText_text e.number),
    Record.readMembers_setField rfl (by decide) (ofDocument_block e.block)]
  rfl

/-- The numbers of a draft fit in signed words, as far as they are there. -/
def Draft.Fits (draft : Draft) : Prop :=
  (∀ n, draft.line = some n → FitsSigned n) ∧ ∀ n, draft.column = some n → FitsSigned n

theorem fits_of_ofDocument {document : Document} {e : ProgramError} (hdocument : document.FitsWords)
    (h : ofDocument document = .ok e) : e.Fits := by
  have hfields : ∀ field ∈ record.fields, Record.Keeps Draft.Fits field.2 := by
    intro field hfield
    simp only [record, List.mem_cons, List.not_mem_nil, or_false] at hfield
    rcases hfield with rfl | rfl | rfl | rfl | rfl
    · refine Record.keeps_setField fun _ n known _ hn hknown => ⟨fun m hm => ?_, hknown.2⟩
      exact Option.some.inj hm ▸ Document.fitsSigned_of_asInteger hn
    · refine Record.keeps_setField fun _ n known _ hn hknown => ⟨hknown.1, fun m hm => ?_⟩
      exact Option.some.inj hm ▸ Document.fitsSigned_of_asInteger hn
    all_goals exact Record.keeps_setField fun _ _ _ _ _ hknown => hknown
  obtain ⟨⟨draft, inArray⟩, hread, h⟩ := Decoded.exists_of_bind h
  have hblank : Draft.Fits ⟨none, none, none, none, none⟩ :=
    ⟨fun _ hnone => (nomatch hnone), fun _ hnone => (nomatch hnone)⟩
  obtain ⟨hline, hcolumn⟩ := Record.keeps_read hfields hdocument hblank hread
  dsimp only at h
  obtain ⟨line, hsome, h⟩ := Decoded.exists_of_bind h
  obtain ⟨column, hsome', h⟩ := Decoded.exists_of_bind h
  obtain ⟨message, -, h⟩ := Decoded.exists_of_bind h
  obtain ⟨number, -, h⟩ := Decoded.exists_of_bind h
  obtain ⟨block, -, h⟩ := Decoded.exists_of_bind h
  cases h
  exact ⟨hline line (Record.eq_some_of_required hsome),
    hcolumn column (Record.eq_some_of_required hsome')⟩

theorem survives :
    Survives toJson ofDocument Fits fun _ => True :=
  .of_fits (fun _ => isExact_toJson) (fun _ => ofDocument_toDocument)
    fun _ _ hdocument h _ => fits_of_ofDocument hdocument h

end ProgramError

namespace StackFrame

/-- The line of a frame fits in a signed word. -/
def Fits (frame : StackFrame) : Prop := FitsSigned frame.line

instance (frame : StackFrame) : Decidable frame.Fits :=
  inferInstanceAs (Decidable (FitsSigned _))

theorem isExact_toJson {frame : StackFrame} (h : frame.Fits) : frame.toJson.IsExact := by
  refine .object fun member hmember => ?_
  simp only [List.mem_cons, List.not_mem_nil, or_false] at hmember
  rcases hmember with rfl | rfl
  · cases frame.declaringType with
    | none => exact .null
    | some name => exact .text name
  · exact .integer h.fitsWord

theorem ofDocument_toDocument {frame : StackFrame} (h : frame.Fits) :
    ofDocument frame.toJson.toDocument = .ok frame := by
  rw [ofDocument, toJson, Json.toDocument, Record.read,
    Record.readMembers_setField rfl (by decide) (Document.asOptional_ofText? frame.declaringType),
    Record.readMembers_setField rfl (by decide) (Document.asInteger_integer h)]
  rfl

theorem fits_of_ofDocument {document : Document} {frame : StackFrame}
    (hdocument : document.FitsWords) (h : ofDocument document = .ok frame) : frame.Fits := by
  have hfields : ∀ field ∈ record.fields, Record.Keeps Fits field.2 := by
    intro field hfield
    simp only [record, List.mem_cons, List.not_mem_nil, or_false] at hfield
    rcases hfield with rfl | rfl
    · exact Record.keeps_setField fun _ _ _ _ _ hknown => hknown
    · exact Record.keeps_setField fun _ _ _ _ hn _ => Document.fitsSigned_of_asInteger hn
  rw [ofDocument] at h
  obtain ⟨⟨found, inArray⟩, hread, rfl⟩ := Decoded.exists_of_map h
  exact Record.keeps_read hfields hdocument (show Fits ⟨none, 0⟩ by decide) hread

theorem survives :
    Survives toJson ofDocument Fits fun _ => True :=
  .of_fits (fun _ => isExact_toJson) (fun _ => ofDocument_toDocument)
    fun _ _ hdocument h _ => fits_of_ofDocument hdocument h

end StackFrame

namespace ScriptFault

/-- The lines of all frames of a fault fit in signed words. -/
def Fits (fault : ScriptFault) : Prop := ∀ frame ∈ fault.frames, frame.Fits

theorem isExact_toJson {fault : ScriptFault} (h : fault.Fits) : fault.toJson.IsExact := by
  refine .object fun member hmember => ?_
  simp only [List.mem_cons, List.not_mem_nil, or_false] at hmember
  rcases hmember with rfl | rfl
  · exact .text fault.message
  · refine .array fun item hitem => ?_
    obtain ⟨frame, hframe, rfl⟩ := List.mem_map.mp hitem
    exact StackFrame.isExact_toJson (h frame hframe)

theorem ofDocument_toDocument {fault : ScriptFault} (h : fault.Fits) :
    ofDocument fault.toJson.toDocument = .ok fault := by
  have hframes := Document.asList_toDocument fun frame hframe =>
    StackFrame.ofDocument_toDocument (h frame hframe)
  rw [ofDocument, toJson, Json.toDocument, Record.read,
    Record.readMembers_setField rfl (by decide) (Document.asText_text fault.message),
    Record.readMembers_setField rfl (by decide) hframes]
  rfl

theorem fits_of_ofDocument {document : Document} {fault : ScriptFault}
    (hdocument : document.FitsWords) (h : ofDocument document = .ok fault) : fault.Fits := by
  have hfields : ∀ field ∈ record.fields,
      Record.Keeps (fun known : Option String × List StackFrame => ∀ frame ∈ known.2, frame.Fits)
        field.2 := by
    intro field hfield
    simp only [record, List.mem_cons, List.not_mem_nil, or_false] at hfield
    rcases hfield with rfl | rfl
    · exact Record.keeps_setField fun _ _ _ _ _ hknown => hknown
    · refine Record.keeps_setField fun _ frames _ hdocument hframes _ frame hframe => ?_
      obtain ⟨item, hitem, hread⟩ := Document.exists_item_of_asList hdocument hframes hframe
      exact StackFrame.fits_of_ofDocument hitem hread
  rw [ofDocument] at h
  split at h
  · cases h
  · next message frames inArray hread =>
    have hframes := Record.keeps_read hfields hdocument (by simp) hread
    obtain ⟨found, -, rfl⟩ := Decoded.exists_of_map h
    exact hframes

theorem survives :
    Survives toJson ofDocument Fits fun _ => True :=
  .of_fits (fun _ => isExact_toJson) (fun _ => ofDocument_toDocument)
    fun _ _ hdocument h _ => fits_of_ofDocument hdocument h

end ScriptFault

namespace MethodRunResult

/-- The state of a result is plain, and not nested deeper than what can be read in its place. -/
def Fits (r : MethodRunResult) : Prop := r.state.IsPlain (Json.maxDepth - 1)

theorem isExact_toJson {r : MethodRunResult} (h : r.Fits) : r.toJson.IsExact := by
  refine .object fun member hmember => ?_
  simp only [List.mem_cons, List.not_mem_nil, or_false] at hmember
  rcases hmember with rfl | rfl
  · exact .boolean r.returnValue
  · exact IsPlain.isExact h

theorem ofDocument_toDocument {r : MethodRunResult} (h : r.Fits) :
    ofDocument r.toJson.toDocument = .ok r := by
  rw [ofDocument, toJson, Json.toDocument, Record.read,
    Record.readMembers_setField rfl (by decide) (Document.asBoolean_boolean r.returnValue),
    Record.readMembers_setField rfl (by decide) (Document.asJson_toDocument h)]
  rfl

theorem fits_of_ofDocument {document : Document} {r : MethodRunResult}
    (hdocument : document.FitsWords) (h : ofDocument document = .ok r) (hwhole : r.state.IsWhole) :
    r.Fits := by
  have hfields : ∀ field ∈ record.fields, Record.Keeps
      (fun known : Option Bool × Json => known.2.IsWhole → known.2.IsPlain (Json.maxDepth - 1))
      field.2 := by
    intro field hfield
    simp only [record, List.mem_cons, List.not_mem_nil, or_false] at hfield
    rcases hfield with rfl | rfl
    · exact Record.keeps_setField fun _ _ _ _ _ hknown => hknown
    · exact Record.keeps_setField fun _ _ _ hdocument hstate _ =>
        Document.isPlain_of_asJson hdocument hstate
  rw [ofDocument] at h
  split at h
  · cases h
  · next value state inArray hread =>
    have hstate := Record.keeps_read hfields hdocument (fun _ => .null) hread
    obtain ⟨found, -, rfl⟩ := Decoded.exists_of_map h
    exact hstate hwhole

theorem survives :
    Survives toJson ofDocument Fits fun r => r.state.IsWhole :=
  .of_fits (fun _ => isExact_toJson) (fun _ => ofDocument_toDocument)
    fun _ _ hdocument h hwhole => fits_of_ofDocument hdocument h hwhole

end MethodRunResult

/-- The types that cross a boundary survive their texts.  Every diagnostic, error, frame and fault whose
numbers fit in signed words is written on one line and is read back from it, whatever its texts are and
however many frames there are; so is every result whose state has no double, has its objects in order and
is not nested too deep.  And whatever is read from any text as one of these types, in braces or in brackets,
with fields left out or with members that nobody knows, is written on one line that is read as the same
value; of a state that is read it only has to be said that there is no double in it. -/
theorem boundary_types_survive_their_texts :
    Survives RawDiagnostic.toJson RawDiagnostic.ofDocument RawDiagnostic.Fits (fun _ => True) ∧
      Survives ProgramError.toJson ProgramError.ofDocument ProgramError.Fits (fun _ => True) ∧
      Survives StackFrame.toJson StackFrame.ofDocument StackFrame.Fits (fun _ => True) ∧
      Survives ScriptFault.toJson ScriptFault.ofDocument ScriptFault.Fits (fun _ => True) ∧
      Survives MethodRunResult.toJson MethodRunResult.ofDocument
        (fun r => r.state.IsPlain (Json.maxDepth - 1)) (fun r => r.state.IsWhole) :=
  ⟨RawDiagnostic.survives, ProgramError.survives, StackFrame.survives, ScriptFault.survives,
    MethodRunResult.survives⟩

section Lamp

/-- What the lamp has told of itself, with names and texts that have to be escaped. -/
def lampResult : MethodRunResult :=
  ⟨true, .object [("bulbs", .array [.integer (-1), .null]), ("note\n", .text "\"on\"\r\\")]⟩

/-- A fault of the lamp in brackets, with a frame in brackets and one that has a member too many. -/
def lampFaultText : String :=
  "[\"dark\", [[\"a.Lamp\", 3], \x7b\"at\": [1], \"line\": -4\x7d, []]]"

theorem results_and_faults_of_the_lamp_survive :
    lampResult.state.IsPlain (Json.maxDepth - 1) ∧
      Decoded.ofText MethodRunResult.ofDocument lampResult.toJson.compact = .ok lampResult ∧
      FreeOfControls lampResult.toJson.compact.toList ∧
      ∃ fault, Decoded.ofText ScriptFault.ofDocument lampFaultText = .ok fault ∧
        fault.frames = [⟨some "a.Lamp", 3⟩, ⟨none, -4⟩, ⟨none, 0⟩] ∧
        Decoded.ofText ScriptFault.ofDocument fault.toJson.compact = .ok fault := by
  have hplain : lampResult.state.IsPlain (Json.maxDepth - 1) := by
    refine .object (by unfold Json.InOrder; decide) fun member hmember => ?_
    simp only [List.mem_cons, List.not_mem_nil, or_false] at hmember
    rcases hmember with rfl | rfl
    · refine .array fun item hitem => ?_
      simp only [List.mem_cons, List.not_mem_nil, or_false] at hitem
      rcases hitem with rfl | rfl
      · exact .integer ⟨by decide, by decide⟩
      · exact .null
    · exact .text _
  obtain ⟨-, -, -, hfault, hresult⟩ := boundary_types_survive_their_texts
  have hread : Decoded.ofText ScriptFault.ofDocument lampFaultText =
      .ok ⟨"dark", [⟨some "a.Lamp", 3⟩, ⟨none, -4⟩, ⟨none, 0⟩]⟩ := by decide +kernel
  exact ⟨hplain, hresult.restored _ hplain, hresult.unbroken _ hplain, _, hread, rfl,
    (hfault.again _ _ hread trivial).2⟩

end Lamp

end Automation
