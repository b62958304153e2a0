import Automation.Proofs.Json.Compact
import Automation.Proofs.Json.Records

/-
Values that documents mean.

A value whose objects are in order and whose containers are not nested too deep is the meaning of its own
document.  The other way round, what any document means is in order and not nested too deep, and the
whole numbers that are read fit in words.  So a value that was read is written exactly, as long as there is
no double in it.
-/

namespace Automation

/-- What is found in each element of a list is found in all of them together. -/
theorem mapM_eq_some_iff {α β : Type} {f : α → Option β} {as : List α} {bs : List β} :
    as.mapM f = some bs ↔ List.Forall₂ (fun a b => f a = some b) as bs := by
  induction as generalizing bs with
  | nil =>
      constructor
      · rintro ⟨⟩
        exact .nil
      · rintro ⟨⟩
        rfl
  | cons a rest ih =>
      simp only [List.mapM_cons, Option.bind_eq_bind, Option.bind_eq_some_iff, Option.pure_def,
        Option.some.injEq]
      constructor
      · rintro ⟨b, hb, others, hothers, rfl⟩
        exact .cons hb (ih.mp hothers)
      · rintro (_ | ⟨hb, hothers⟩)
        exact ⟨_, hb, _, ih.mpr hothers, rfl⟩

/-- Where two lists belong together element by element, each element of the second has its partner. -/
theorem exists_partner {α β : Type} {R : α → β → Prop} {as : List α} {bs : List β}
    (h : List.Forall₂ R as bs) {b : β} (hb : b ∈ bs) : ∃ a ∈ as, R a b := by
  induction h with
  | nil => cases hb
  | cons hab _ ih =>
      rcases List.mem_cons.mp hb with rfl | hb
      · exact ⟨_, List.mem_cons_self, hab⟩
      · obtain ⟨a, ha, hab⟩ := ih hb
        exact ⟨a, List.mem_cons_of_mem _ ha, hab⟩

namespace Json

/-- There is no double in a value. -/
inductive IsWhole : Json → Prop where
  | null : IsWhole .null
  | boolean (b : Bool) : IsWhole (.boolean b)
  | integer (n : Int) : IsWhole (.number (.integer n))
  | text (s : String) : IsWhole (.text s)
  | array {items : List Json} (h : ∀ item ∈ items, IsWhole item) : IsWhole (.array items)
  | object {members : List (String × Json)} (h : ∀ member ∈ members, IsWhole member.2) :
      IsWhole (.object members)

/-- A value without doubles, with whole numbers that fit in words, with its objects in order, and with
containers that are nested at most so deep. -/
inductive IsPlain : Nat → Json → Prop where
  | null {depth : Nat} : IsPlain depth .null
  | boolean {depth : Nat} (b : Bool) : IsPlain depth (.boolean b)
  | integer {depth : Nat} {n : Int} (h : Numeral.FitsWord n) : IsPlain depth (.number (.integer n))
  | text {depth : Nat} (s : String) : IsPlain depth (.text s)
  | array {depth : Nat} {items : List Json} (h : ∀ item ∈ items, IsPlain depth item) :
      IsPlain (depth + 1) (.array items)
  | object {depth : Nat} {members : List (String × Json)} (hsorted : InOrder members)
      (h : ∀ member ∈ members, IsPlain depth member.2) : IsPlain (depth + 1) (.object members)

variable {depth : Nat} {v : Json} {members : List (String × Json)}

theorem IsPlain.isExact (h : v.IsPlain depth) : v.IsExact := by
  induction h with
  | null => exact .null
  | boolean b => exact .boolean b
  | integer hn => exact .integer hn
  | text s => exact .text s
  | array _ ih => exact .array ih
  | object _ _ ih => exact .object ih

section Meaning

/-- A member whose name is behind all others is put at the end. -/
theorem insert_of_lt {name : String} {value : Json}
    (h : ∀ other ∈ members.map Prod.fst, other < name) :
    insert name value members = members ++ [(name, value)] := by
  induction members with
  | nil => rfl
  | cons member rest ih =>
      obtain ⟨first, old⟩ := member
      rw [List.map_cons, List.forall_mem_cons] at h
      have hbehind : ¬name < first := fun hlt => String.lt_irrefl name (String.lt_trans hlt h.1)
      have hne : name ≠ first := by
        rintro rfl
        exact String.lt_irrefl name h.1
      rw [insert, if_neg hbehind, if_neg hne, ih h.2]
      rfl

/-- Members in order are put behind one another. -/
theorem foldl_insert_of_inOrder {sorted : List (String × Json)} (h : InOrder (sorted ++ members)) :
    members.foldl (fun sorted member => insert member.1 member.2 sorted) sorted =
      sorted ++ members := by
  induction members generalizing sorted with
  | nil => exact (List.append_nil sorted).symm
  | cons member rest ih =>
      have hbehind : ∀ other ∈ sorted.map Prod.fst, other < member.1 := by
        rw [InOrder, List.map_append, List.pairwise_append] at h
        exact fun other hother => h.2.2 other hother member.1 (by simp)
      have hput : sorted ++ member :: rest = (sorted ++ [member]) ++ rest := by simp
      rw [hput] at h ⊢
      rw [List.foldl_cons, insert_of_lt hbehind]
      exact ih h

theorem forall₂_toDocuments {items : List Json}
    (h : ∀ item ∈ items, item.toDocument.toJson? depth = some item) :
    List.Forall₂ (fun document item => document.toJson? depth = some item)
      (toDocuments items) items := by
  induction items with
  | nil => exact .nil
  | cons first more ih =>
      rw [List.forall_mem_cons] at h
      exact .cons h.1 (ih h.2)

/-- The meaning of a member: its name, and the meaning of its value. -/
def member? (depth : Nat) (member : Option String × Document) : Option (String × Json) := do
  let name ← member.1
  let value ← member.2.toJson? depth
  pure (name, value)

theorem member?_eq_some_iff {written : Option String × Document} {member : String × Json} :
    member? depth written = some member ↔
      written.1 = some member.1 ∧ written.2.toJson? depth = some member.2 := by
  obtain ⟨name, value⟩ := member
  simp only [member?, Option.bind_eq_bind, Option.bind_eq_some_iff, Option.pure_def,
    Option.some.injEq, Prod.mk.injEq]
  constructor
  · rintro ⟨_, hname, _, hvalue, rfl, rfl⟩
    exact ⟨hname, hvalue⟩
  · rintro ⟨hname, hvalue⟩
    exact ⟨name, hname, value, hvalue, rfl, rfl⟩

/-- An object means its members, put in order. -/
theorem toJson?_object (written : List (Option String × Document)) :
    (Document.object written).toJson? (depth + 1) = (written.mapM (member? depth)).map fun values =>
      .object (values.foldl (fun sorted member => insert member.1 member.2 sorted) []) := by
  rw [Document.toJson?]
  change (written.mapM (member? depth)).bind _ = _
  cases written.mapM (member? depth) <;> rfl

theorem forall₂_toMembers (h : ∀ member ∈ members, member.2.toDocument.toJson? depth = some member.2) :
    List.Forall₂ (fun written member => member? depth written = some member)
      (toMembers members) members := by
  induction members with
  | nil => exact .nil
  | cons member rest ih =>
      rw [List.forall_mem_cons] at h
      exact .cons (member?_eq_some_iff.mpr ⟨rfl, h.1⟩) (ih h.2)

/-- A plain value is the meaning of its document. -/
theorem IsPlain.toJson?_toDocument (h : v.IsPlain depth) : v.toDocument.toJson? depth = some v := by
  induction h with
  | null => cases ‹Nat› <;> rfl
  | boolean b => cases ‹Nat› <;> rfl
  | integer hn => cases ‹Nat› <;> rfl
  | text s => cases ‹Nat› <;> rfl
  | array _ ih => 
      rw [toDocument, Document.toJson?, mapM_eq_some_iff.mpr (forall₂_toDocuments ih)]
      rfl
  | object hsorted _ ih => 
      rw [toDocument, toJson?_object, mapM_eq_some_iff.mpr (forall₂_toMembers ih), Option.map_some,
        foldl_insert_of_inOrder (by exact hsorted), List.nil_append]

theorem mem_of_mem_insert {name : String} {value : Json} {member : String × Json}
    (h : member ∈ insert name value members) : member = (name, value) ∨ member ∈ members := by
  induction members with
  | nil => exact .inl (List.mem_singleton.mp h)
  | cons first rest ih =>
      obtain ⟨other, old⟩ := first
      rw [insert] at h
      split_ifs at h
      · exact List.mem_cons.mp h
      · exact (List.mem_cons.mp h).imp_right (List.mem_cons_of_mem _)
      · rcases List.mem_cons.mp h with rfl | h
        · exact .inr List.mem_cons_self
        · exact (ih h).imp_right (List.mem_cons_of_mem _)

theorem mem_of_mem_foldl_insert {sorted : List (String × Json)} {member : String × Json}
    (h : member ∈ members.foldl (fun sorted member => insert member.1 member.2 sorted) sorted) :
    member ∈ members ∨ member ∈ sorted := by
  induction members generalizing sorted with
  | nil => exact .inr h
  | cons first rest ih =>
      rcases ih h with h | h
      · exact .inl (List.mem_cons_of_mem first h)
      · rcases mem_of_mem_insert h with rfl | h
        · exact .inl List.mem_cons_self
        · exact .inr h

end Meaning

end Json

namespace Document

/-- The whole numbers in a document fit in words. -/
inductive FitsWords : Document → Prop where
  | null : FitsWords .null
  | boolean (b : Bool) : FitsWords (.boolean b)
  | number {n : Option Number} (h : ∀ k, n = some (.integer k) → Numeral.FitsWord k) :
      FitsWords (.number n)
  | text (t : Option String) : FitsWords (.text t)
  | array {items : List Document} (h : ∀ item ∈ items, FitsWords item) : FitsWords (.array items)
  | object {members : List (Option String × Document)} (h : ∀ member ∈ members, FitsWords member.2) :
      FitsWords (.object members)

open Json (IsWhole IsPlain InOrder member? member?_eq_some_iff mem_of_mem_foldl_insert)

/-- What a document means is plain, as long as there is no double in it. -/
theorem FitsWords.isPlain {document : Document} (h : document.FitsWords) {depth : Nat} {v : Json}
    (hmeans : document.toJson? depth = some v) (hwhole : v.IsWhole) : v.IsPlain depth := by
  induction h generalizing depth v with
  | null =>
      rw [toJson?] at hmeans
      cases hmeans
      exact .null
  | boolean b =>
      rw [toJson?] at hmeans
      cases hmeans
      exact .boolean b
  | @number n hn =>
      rw [toJson?] at hmeans
      obtain ⟨found, rfl, rfl⟩ := Option.map_eq_some_iff.mp hmeans
      cases hwhole with
      | integer k => exact .integer (hn k rfl)
  | text t =>
      rw [toJson?] at hmeans
      obtain ⟨s, -, rfl⟩ := Option.map_eq_some_iff.mp hmeans
      exact .text s
  | @array items _ ih =>
      cases depth with
      | zero => simp [toJson?] at hmeans
      | succ depth =>
          rw [toJson?] at hmeans
          obtain ⟨values, hvalues, rfl⟩ := Option.map_eq_some_iff.mp hmeans
          cases hwhole with
          | array hwhole =>
              refine .array fun value hvalue => ?_
              obtain ⟨item, hitem, hvalue'⟩ := exists_partner (mapM_eq_some_iff.mp hvalues) hvalue
              exact ih item hitem hvalue' (hwhole value hvalue)
  | @object written _ ih =>
      have hsorted : ∀ members, v = .object members → InOrder members := by
        rintro members rfl
        exact Json.inOrder_of_toJson? hmeans
      cases depth with
      | zero => simp [toJson?] at hmeans
      | succ depth =>
          rw [Json.toJson?_object] at hmeans
          obtain ⟨values, hvalues, rfl⟩ := Option.map_eq_some_iff.mp hmeans
          cases hwhole with
          | object hwhole =>
              refine .object (hsorted _ rfl) fun member hmember => ?_
              have hvalue : member ∈ values := by
                rcases mem_of_mem_foldl_insert hmember with hvalue | hnone
                · exact hvalue
                · cases hnone
              obtain ⟨other, hother, hfound⟩ := exists_partner (mapM_eq_some_iff.mp hvalues) hvalue
              exact ih other hother (member?_eq_some_iff.mp hfound).2 (hwhole member hmember)

end Document

namespace Numeral

variable {negative : Bool} {significand : Nat} {exponent k : Int} {numeral : Numeral}

theorem gather_lt (ds : List Char) {n : Nat} (hn : n < wordLimit) : (gather n ds).1 < wordLimit := by
  induction ds generalizing n with
  | nil => exact hn
  | cons c rest ih =>
      rw [gather]
      split
      · next hnext => exact ih hnext
      · exact hn

theorem double?_ne_integer : double? negative significand exponent ≠ some (.integer k) := by
  simp [double?]

theorem withExponent_ne_integer :
    numeral.withExponent significand exponent ≠ some (.integer k) := by
  rw [withExponent]
  split
  · exact double?_ne_integer
  · dsimp only
    split
    · split
      · exact fun h => nomatch h
      · exact double?_ne_integer
    · exact double?_ne_integer

/-- A whole number is only read where a word holds it. -/
theorem fitsWord_of_value? (h : numeral.value? = some (.integer k)) : FitsWord k := by
  have hword : (gather 0 numeral.whole).1 < wordLimit := gather_lt numeral.whole (by decide)
  rw [value?] at h
  generalize gather 0 numeral.whole = gathered at hword h
  obtain ⟨significand, left⟩ := gathered
  rw [wordLimit] at hword
  dsimp only at hword h
  split_ifs at h with hleft hinteger hnegative hzero
  · exact absurd h withExponent_ne_integer
  · exact absurd h double?_ne_integer
  · cases h
    rw [FitsWord]
    omega
  · cases h
    rw [FitsWord]
    omega
  · exact absurd h withExponent_ne_integer

end Numeral

namespace Document

/-- With so much fuel, only whole numbers that fit in words are read. -/
structure ReadsWords (fuel : Nat) : Prop where
  value : ∀ {cs document rest}, value? fuel cs = some (document, rest) → document.FitsWords
  items : ∀ {cs documents rest}, items? fuel cs = some (documents, rest) →
    ∀ document ∈ documents, document.FitsWords
  members : ∀ {cs members rest}, members? fuel cs = some (members, rest) →
    ∀ member ∈ members, member.2.FitsWords

variable {fuel : Nat} {cs rest : List Char}

theorem ReadsWords.value_succ (h : ReadsWords fuel) {document : Document}
    (hread : value? (fuel + 1) cs = some (document, rest)) : document.FitsWords := by
  rw [value?] at hread
  split at hread
  · cases hread
    exact .null
  · cases hread
    exact .boolean true
  · cases hread
    exact .boolean false
  · obtain ⟨⟨t, left⟩, -, hdocument⟩ := Option.map_eq_some_iff.mp hread
    cases hdocument
    exact .text t
  · split at hread
    · cases hread
      exact .array (by simp)
    · obtain ⟨⟨found, left⟩, hfound, hdocument⟩ := Option.map_eq_some_iff.mp hread
      cases hdocument
      exact .array (h.items hfound)
  · split at hread
    · cases hread
      exact .object (by simp)
    · obtain ⟨⟨found, left⟩, hfound, hdocument⟩ := Option.map_eq_some_iff.mp hread
      cases hdocument
      exact .object (h.members hfound)
  · obtain ⟨⟨numeral, left⟩, -, hdocument⟩ := Option.map_eq_some_iff.mp hread
    cases hdocument
    exact .number fun k => Numeral.fitsWord_of_value?

theorem ReadsWords.items_succ (h : ReadsWords fuel) {documents : List Document}
    (hread : items? (fuel + 1) cs = some (documents, rest)) :
    ∀ document ∈ documents, document.FitsWords := by
  rw [items?] at hread
  obtain ⟨⟨first, left⟩, hfirst, hread⟩ := Option.bind_eq_some_iff.mp hread
  dsimp only at hread
  split at hread
  · obtain ⟨⟨more, left⟩, hmore, hdocuments⟩ := Option.map_eq_some_iff.mp hread
    cases hdocuments
    exact List.forall_mem_cons.mpr ⟨h.value hfirst, h.items hmore⟩
  · cases hread
    exact List.forall_mem_singleton.mpr (h.value hfirst)
  · cases hread

theorem ReadsWords.members_succ (h : ReadsWords fuel) {members : List (Option String × Document)}
    (hread : members? (fuel + 1) cs = some (members, rest)) :
    ∀ member ∈ members, member.2.FitsWords := by
  rw [members?] at hread
  split at hread
  · obtain ⟨⟨name, left⟩, -, hread⟩ := Option.bind_eq_some_iff.mp hread
    dsimp only at hread
    split at hread
    · obtain ⟨⟨first, left⟩, hfirst, hread⟩ := Option.bind_eq_some_iff.mp hread
      dsimp only at hread
      split at hread
      · obtain ⟨⟨more, left⟩, hmore, hmembers⟩ := Option.map_eq_some_iff.mp hread
        cases hmembers
        exact List.forall_mem_cons.mpr ⟨h.value hfirst, h.members hmore⟩
      · cases hread
        exact List.forall_mem_singleton.mpr (h.value hfirst)
      · cases hread
    · cases hread
  · cases hread

theorem readsWords (fuel : Nat) : ReadsWords fuel := by
  induction fuel with
  | zero => constructor <;> simp [value?, items?, members?]
  | succ fuel ih => exact ⟨ih.value_succ, ih.items_succ, ih.members_succ⟩

/-- The whole numbers of a text that is read fit in words. -/
theorem fitsWords_of_parse? {source : String} {document : Document}
    (h : parse? source = some document) : document.FitsWords := by
  obtain ⟨⟨found, left⟩, hfound, hend⟩ := Option.bind_eq_some_iff.mp h
  dsimp only at hend
  split at hend
  · cases hend
    exact (readsWords _).value hfound
  · cases hend

end Document

end Automation
