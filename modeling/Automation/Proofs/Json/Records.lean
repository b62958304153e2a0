import Automation.Json.Decode
import Mathlib.Data.List.Basic

/-
Records, read from the members of an object.

Each field of a record is about a part of it that all others leave alone.  So what is known of that part
in the end is what its member says, or what was known before if there is no such member; and members
that say something, each about a field of its own, make a record.
-/

namespace Automation

namespace Record

variable {ρ β : Type} {record : Record ρ} {members : List (Option String × Document)}
  {seen : List String} {known now : ρ} {name : String}

theorem mem_fields_of_lookup {read : Document → ρ → Decoded ρ}
    (h : record.fields.lookup name = some read) : (name, read) ∈ record.fields := by
  obtain ⟨before, after, hfields, -⟩ := List.lookup_eq_some_iff.mp h
  simp [hfields]

/-- A member is passed over, or it is the first one of a field and is read into it. -/
theorem readMembers_cons {other : Option String} {document : Document}
    (h : record.readMembers ((other, document) :: members) seen known = .ok now) :
    ∃ found, other = some found ∧
      (record.fields.lookup found = none ∧ record.readMembers members seen known = .ok now ∨
        ∃ read next, record.fields.lookup found = some read ∧ found ∉ seen ∧
          read document known = .ok next ∧
          record.readMembers members (found :: seen) next = .ok now) := by
  cases other with
  | none => cases h
  | some found =>
      refine ⟨found, rfl, ?_⟩
      rw [readMembers] at h
      split at h
      · next hunknown => exact .inl ⟨hunknown, h⟩
      · next read hread =>
        split at h
        · cases h
        · next hunseen =>
          split at h
          · cases h
          · next next hnext => exact .inr ⟨read, next, hread, hunseen, hnext, h⟩

/-- A field that has been read is not met again. -/
theorem lookup_of_mem_seen (hfield : record.fields.lookup name ≠ none) (hseen : name ∈ seen)
    (h : record.readMembers members seen known = .ok now) : members.lookup (some name) = none := by
  induction members generalizing seen known with
  | nil => rfl
  | cons member rest ih =>
      obtain ⟨other, document⟩ := member
      obtain ⟨found, rfl, ⟨hunknown, hrest⟩ | ⟨read, next, -, hunseen, -, hrest⟩⟩ :=
        readMembers_cons h
      · have hne : name ≠ found := by
          rintro rfl
          exact hfield hunknown
        rw [List.lookup_cons, beq_eq_false_iff_ne.mpr (by simpa using hne)]
        exact ih hseen hrest
      · have hne : name ≠ found := by
          rintro rfl
          exact hunseen hseen
        rw [List.lookup_cons, beq_eq_false_iff_ne.mpr (by simpa using hne)]
        exact ih (List.mem_cons_of_mem found hseen) hrest

/-- One field sets a part of a record to the value of its document, and all others leave it alone. -/
structure Governs (record : Record ρ) (name : String) (part : ρ → β)
    (value : Document → Decoded β) : Prop where
  field : record.fields.lookup name ≠ none
  sets : ∀ read document known now, record.fields.lookup name = some read →
    read document known = .ok now → value document = .ok (part now)
  keeps : ∀ other read document known now, record.fields.lookup other = some read → other ≠ name →
    read document known = .ok now → part now = part known

/-- What is known of a part in the end is what its member says, if there is one. -/
theorem Governs.part_of_readMembers {part : ρ → β} {value : Document → Decoded β}
    (hgoverns : record.Governs name part value)
    (h : record.readMembers members seen known = .ok now) :
    (members.lookup (some name) = none ∧ part now = part known) ∨
      ∃ document, members.lookup (some name) = some document ∧
        value document = .ok (part now) := by
  induction members generalizing seen known with
  | nil =>
      cases h
      exact .inl ⟨rfl, rfl⟩
  | cons member rest ih =>
      obtain ⟨other, document⟩ := member
      obtain ⟨found, rfl, hread⟩ := readMembers_cons h
      by_cases hname : name = found
      · subst hname
        rcases hread with ⟨hunknown, -⟩ | ⟨read, next, hread, -, hnext, hrest⟩
        · exact absurd hunknown hgoverns.field
        · -- no member after this one is about the part
          have hnone := lookup_of_mem_seen hgoverns.field List.mem_cons_self hrest
          have hpart : part now = part next := by
            rcases ih hrest with ⟨-, hpart⟩ | ⟨document', hsome, -⟩
            · exact hpart
            · cases hnone.symm.trans hsome
          exact .inr ⟨document, List.lookup_cons_self,
            hpart ▸ hgoverns.sets read document known next hread hnext⟩
      · rw [List.lookup_cons, beq_eq_false_iff_ne.mpr (by simpa using hname)]
        rcases hread with ⟨-, hrest⟩ | ⟨read, next, hread, -, hnext, hrest⟩
        · exact ih hrest
        · rw [← hgoverns.keeps found read document known next hread (Ne.symm hname) hnext]
          exact ih hrest

/-- Members of different names that can be read make a record. -/
theorem exists_readMembers {members : List (String × Document)}
    (hnodup : (members.map Prod.fst).Nodup) (hseen : ∀ name ∈ members.map Prod.fst, name ∉ seen)
    (hreads : ∀ member ∈ members, ∀ read, record.fields.lookup member.1 = some read →
      ∀ known, ∃ now, read member.2 known = .ok now) :
    ∃ now, record.readMembers (members.map fun member => (some member.1, member.2)) seen known =
      .ok now := by
  induction members generalizing seen known with
  | nil => exact ⟨known, rfl⟩
  | cons member rest ih =>
      rw [List.map_cons, List.nodup_cons] at hnodup
      rw [List.map_cons, List.forall_mem_cons] at hseen
      rw [List.forall_mem_cons] at hreads
      rw [List.map_cons, readMembers]
      split
      · exact ih hnodup.2 hseen.2 hreads.2
      · next read hread =>
        obtain ⟨known', hknown⟩ := hreads.1 read hread known
        rw [if_neg hseen.1, hknown]
        refine ih hnodup.2 (fun name hname hmem => ?_) hreads.2
        rcases List.mem_cons.mp hmem with rfl | hmem
        · exact hnodup.1 hname
        · exact hseen.2 name hname hmem

end Record

namespace Json

variable {members : List (String × Json)}

theorem toMembers_eq_map (members : List (String × Json)) :
    toMembers members = (members.map fun member => (member.1, member.2.toDocument)).map
      fun member => (some member.1, member.2) := by
  induction members with
  | nil => rfl
  | cons member rest ih =>
      obtain ⟨name, value⟩ := member
      rw [toMembers, ih]
      rfl

theorem lookup_toMembers (members : List (String × Json)) (name : String) :
    (toMembers members).lookup (some name) = (members.lookup name).map toDocument := by
  induction members with
  | nil => rfl
  | cons member rest ih =>
      obtain ⟨other, value⟩ := member
      rw [toMembers, List.lookup_cons, List.lookup_cons]
      by_cases hname : name = other
      · simp [hname]
      · rw [beq_eq_false_iff_ne.mpr hname, beq_eq_false_iff_ne.mpr (by simpa using hname)]
        exact ih

/-- A member is the one of its name where each name stands once. -/
theorem lookup_of_mem (hnodup : (members.map Prod.fst).Nodup) {name : String} {value : Json}
    (h : (name, value) ∈ members) : members.lookup name = some value := by
  induction members with
  | nil => cases h
  | cons member rest ih =>
      obtain ⟨other, old⟩ := member
      rw [List.map_cons, List.nodup_cons] at hnodup
      rcases List.mem_cons.mp h with heq | hrest
      · cases heq
        exact List.lookup_cons_self
      · have hne : name ≠ other := by
          rintro rfl
          exact hnodup.1 (List.mem_map.mpr ⟨_, hrest, rfl⟩)
        rw [List.lookup_cons, beq_eq_false_iff_ne.mpr hne]
        exact ih hnodup.2 hrest

/-- The names of some members are in order, so each stands once. -/
def InOrder (members : List (String × Json)) : Prop :=
  (members.map Prod.fst).Pairwise (· < ·)

theorem InOrder.nodup (h : InOrder members) : (members.map Prod.fst).Nodup := by
  refine List.Pairwise.imp (fun {first second} hlt => ?_) h
  rintro rfl
  exact String.lt_irrefl first hlt

theorem mem_names_insert {name other : String} {value : Json}
    (h : other ∈ (insert name value members).map Prod.fst) :
    other = name ∨ other ∈ members.map Prod.fst := by
  induction members with
  | nil => simpa [insert] using h
  | cons member rest ih =>
      obtain ⟨first, old⟩ := member
      rw [insert] at h
      split_ifs at h with hlt heq
      · simpa using h
      · subst heq
        exact .inr (by simpa using h)
      · rw [List.map_cons, List.mem_cons] at h ⊢
        rcases h with rfl | h
        · exact .inr (.inl rfl)
        · exact (ih h).imp_right .inr

/-- A member is put where its name keeps the order. -/
theorem InOrder.insert (h : InOrder members) (name : String) (value : Json) :
    InOrder (insert name value members) := by
  induction members with
  | nil => exact List.pairwise_singleton _ _
  | cons member rest ih =>
      obtain ⟨first, old⟩ := member
      obtain ⟨hfirst, hrest⟩ := List.pairwise_cons.mp h
      rw [Json.insert]
      split_ifs with hlt heq
      · refine List.pairwise_cons.mpr ⟨fun other hother => ?_, h⟩
        rcases List.mem_cons.mp hother with rfl | hother
        · exact hlt
        · exact String.lt_trans hlt (hfirst other hother)
      · subst heq
        exact List.pairwise_cons.mpr ⟨hfirst, hrest⟩
      · have hafter : first < name :=
          String.not_le.mp fun hle => heq (String.le_antisymm hle (String.not_lt.mp hlt))
        refine List.pairwise_cons.mpr ⟨fun other hother => ?_, ih hrest⟩
        rcases mem_names_insert hother with rfl | hother
        · exact hafter
        · exact hfirst other hother

/-- The members of an object that has been read are in order. -/
theorem inOrder_of_toJson? {depth : Nat} {document : Document}
    (h : document.toJson? depth = some (.object members)) : InOrder members := by
  have hfold : ∀ (values sorted : List (String × Json)), InOrder sorted →
      InOrder (values.foldl (fun sorted member => Json.insert member.1 member.2 sorted) sorted) := by
    intro values
    induction values with
    | nil => exact fun sorted hsorted => hsorted
    | cons value rest ih => exact fun sorted hsorted => ih _ (hsorted.insert value.1 value.2)
  cases document with
  | object written =>
      cases depth with
      | zero => simp [Document.toJson?] at h
      | succ depth =>
          simp only [Document.toJson?, Option.bind_eq_bind, Option.bind_eq_some_iff] at h
          obtain ⟨values, -, hvalues⟩ := h
          cases hvalues
          exact hfold values [] List.Pairwise.nil
  | array items => cases depth <;> simp [Document.toJson?] at h
  | _ => simp [Document.toJson?] at h

theorem inOrder_of_parse? {source : String} (h : parse? source = some (.object members)) :
    InOrder members := by
  obtain ⟨document, -, hvalue⟩ := Option.bind_eq_some_iff.mp h
  exact inOrder_of_toJson? hvalue

end Json

end Automation
