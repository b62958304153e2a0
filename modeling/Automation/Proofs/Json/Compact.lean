import Automation.Proofs.Json.Leaves

/-
Compact texts, written and read back.

A value without doubles is read back as the document that it is, whatever the texts and names in it.
Reading goes one container deeper for one more character at least, so the length of a text is enough of
a bound for it.
-/

namespace Automation

namespace Json

/-- A value all of whose numbers are whole and fit in a word. -/
inductive IsExact : Json → Prop where
  | null : IsExact .null
  | boolean (b : Bool) : IsExact (.boolean b)
  | integer {n : Int} (h : Numeral.FitsWord n) : IsExact (.number (.integer n))
  | text (s : String) : IsExact (.text s)
  | array {items : List Json} (h : ∀ item ∈ items, IsExact item) : IsExact (.array items)
  | object {members : List (String × Json)} (h : ∀ member ∈ members, IsExact member.2) :
      IsExact (.object members)

/-- The compact text of a value is read back, whatever stands behind it. -/
def Reads (v : Json) : Prop :=
  ∀ ⦃fuel : Nat⦄ ⦃rest : List Char⦄, v.render.length ≤ fuel → EndsNumeral rest →
    Document.value? fuel (v.render ++ rest) = some (v.toDocument, rest)

end Json

namespace Document

open Json (render renderText renderItems renderMembers toDocuments toMembers Reads)

variable {fuel : Nat} {c : Char} {cs rest : List Char}

theorem skipSpace_cons (h : isSpace c = false) : skipSpace (c :: cs) = c :: cs := by
  simp [skipSpace, h]

theorem isSpace_numeral (h : c.isDigit = true ∨ c = '-') : isSpace c = false := by
  rw [← Bool.not_eq_true, isSpace]
  intro hspace
  simp only [Bool.or_eq_true, beq_iff_eq] at hspace
  rcases hspace with ((rfl | rfl) | rfl) | rfl
  all_goals simp at h

/-- What starts like a number is read as one. -/
theorem value?_numeral (h : c.isDigit = true ∨ c = '-') :
    value? (fuel + 1) (c :: cs) =
      (numeral? (c :: cs)).map fun (n, rest) => (.number n.value?, rest) := by
  rw [value?, skipSpace_cons (isSpace_numeral h)]
  split <;> simp_all

theorem value?_quote (cs : List Char) :
    value? (fuel + 1) ('\"' :: cs) = (text? cs).map fun (t, rest) => (.text t, rest) := rfl

theorem value?_bracket (hspace : isSpace c = false) (hclose : c ≠ ']') :
    value? (fuel + 1) ('[' :: c :: cs) =
      (items? fuel (c :: cs)).map fun (ds, rest) => (.array ds, rest) := by
  have hopen : skipSpace ('[' :: c :: cs) = '[' :: c :: cs := rfl
  simp only [value?, hopen, skipSpace_cons hspace]
  split <;> simp_all

theorem value?_brace (cs : List Char) :
    value? (fuel + 1) ('\x7b' :: '\"' :: cs) =
      (members? fuel ('\"' :: cs)).map fun (ms, rest) => (.object ms, rest) := rfl

/-- The items of an array are read one by one. -/
theorem items?_render {first : Json} {more : List Json} (h : ∀ item ∈ first :: more, Reads item)
    (hfuel : (first.render ++ renderItems more).length < fuel) :
    items? fuel (first.render ++ (renderItems more ++ ']' :: rest)) =
      some (toDocuments (first :: more), rest) := by
  induction more generalizing first fuel with
  | nil =>
      obtain ⟨fuel, rfl⟩ := Nat.exists_eq_succ_of_ne_zero (Nat.ne_zero_of_lt hfuel)
      simp only [renderItems, List.append_nil] at hfuel
      have hfirst := h first List.mem_cons_self (show first.render.length ≤ fuel by omega)
        (show EndsNumeral (']' :: rest) from endsNumeral_cons (by decide))
      simp only [items?, renderItems, List.nil_append, hfirst]
      rfl
  | cons second others ih =>
      obtain ⟨fuel, rfl⟩ := Nat.exists_eq_succ_of_ne_zero (Nat.ne_zero_of_lt hfuel)
      simp only [renderItems, List.length_append, List.length_cons] at hfuel
      have hfirst := h first List.mem_cons_self (show first.render.length ≤ fuel by omega)
        (show EndsNumeral (',' :: (second.render ++ (renderItems others ++ ']' :: rest))) from
          endsNumeral_cons (by decide))
      have hothers : items? fuel (second.render ++ (renderItems others ++ ']' :: rest)) =
          some (toDocuments (second :: others), rest) :=
        ih (fun item hitem => h item (List.mem_cons_of_mem first hitem))
          (by simp only [List.length_append]; omega)
      simp only [items?, renderItems, List.cons_append, List.append_assoc, hfirst]
      change (items? fuel _).map _ = _
      rw [hothers]
      rfl

/-- What is read behind a member: more of them, or the end of the object. -/
def behind? (fuel : Nat) (member : Option String × Document) (cs : List Char) :
    Option (List (Option String × Document) × List Char) :=
  match skipSpace cs with
  | ',' :: rest => (members? fuel rest).map fun (more, rest) => (member :: more, rest)
  | '\x7d' :: rest => some ([member], rest)
  | _ => none

/-- The name of a member is read, then its value, and then what is behind it. -/
theorem members?_name (name : String) {first : Json} (h : Reads first)
    (hfuel : first.render.length ≤ fuel) {after : List Char} (hafter : EndsNumeral after) :
    members? (fuel + 1) (renderText name ++ ':' :: (first.render ++ after)) =
      behind? fuel (some name, first.toDocument) after := by
  have hquote : skipSpace (renderText name ++ ':' :: (first.render ++ after)) =
      '\"' :: (name.toList.flatMap Json.escape ++ '\"' :: ':' :: (first.render ++ after)) := by
    rw [renderText, List.cons_append, skipSpace_cons (by decide), List.append_assoc]
    rfl
  have hcolon : skipSpace (':' :: (first.render ++ after)) = ':' :: (first.render ++ after) := rfl
  simp only [members?, hquote, text?_escape, Option.bind_eq_bind, Option.bind_some, hcolon,
    h hfuel hafter]
  rfl

/-- The members of an object are read one by one. -/
theorem members?_render {name : String} {first : Json} {more : List (String × Json)}
    (h : ∀ member ∈ (name, first) :: more, Reads member.2)
    (hfuel : (first.render ++ renderMembers more).length < fuel) :
    members? fuel (renderText name ++ ':' :: (first.render ++ (renderMembers more ++ '\x7d' :: rest))) =
      some (toMembers ((name, first) :: more), rest) := by
  induction more generalizing name first fuel with
  | nil =>
      obtain ⟨fuel, rfl⟩ := Nat.exists_eq_succ_of_ne_zero (Nat.ne_zero_of_lt hfuel)
      simp only [renderMembers, List.append_nil] at hfuel
      have hfirst : Reads first := h _ List.mem_cons_self
      rw [renderMembers, List.nil_append, members?_name name hfirst (by omega)
        (endsNumeral_cons (by decide))]
      rfl
  | cons second others ih =>
      obtain ⟨fuel, rfl⟩ := Nat.exists_eq_succ_of_ne_zero (Nat.ne_zero_of_lt hfuel)
      obtain ⟨name', value⟩ := second
      simp only [renderMembers, List.length_append, List.length_cons] at hfuel
      have hothers : members? fuel
          (renderText name' ++ ':' :: (value.render ++ (renderMembers others ++ '\x7d' :: rest))) =
            some (toMembers ((name', value) :: others), rest) :=
        ih (fun member hmember => h member (List.mem_cons_of_mem _ hmember))
          (by simp only [List.length_append]; omega)
      have hfirst : Reads first := h _ List.mem_cons_self
      rw [renderMembers, List.cons_append, members?_name name hfirst (by omega)
        (endsNumeral_cons (by decide)), behind?, skipSpace_cons (by decide)]
      simp only [List.append_assoc, List.cons_append, hothers]
      rfl

end Document

namespace Json

variable {v : Json}

/-- No value is written without a character, so there is something to go by. -/
theorem reads_of_succ (hpos : 0 < v.render.length)
    (h : ∀ fuel rest, v.render.length ≤ fuel + 1 → EndsNumeral rest →
      Document.value? (fuel + 1) (v.render ++ rest) = some (v.toDocument, rest)) : v.Reads := by
  intro fuel rest hfuel hrest
  obtain ⟨fuel, rfl⟩ := Nat.exists_eq_succ_of_ne_zero (Nat.ne_zero_of_lt (Nat.lt_of_lt_of_le hpos hfuel))
  exact h fuel rest hfuel hrest

/-- A number starts with a digit or with its sign. -/
theorem exists_start_integer (n : Int) :
    ∃ c cs, (toString n).toList = c :: cs ∧ (c.isDigit = true ∨ c = '-') := by
  rw [Int.toString_eq_repr, Int.repr_eq_if]
  split
  · rw [Nat.toList_repr]
    cases hdigits : Nat.toDigits 10 n.toNat with
    | nil => exact absurd hdigits Nat.toDigits_ne_nil
    | cons c ds => exact ⟨c, ds, rfl, .inl (isDigit_of_mem_digits (n := n.toNat) (by simp [hdigits]))⟩
  · exact ⟨'-', _, String.toList_append, .inr rfl⟩

theorem reads_integer {n : Int} (h : Numeral.FitsWord n) : (Json.number (.integer n)).Reads := by
  obtain ⟨c, cs, hstart, hc⟩ := exists_start_integer n
  have hrender : (Json.number (.integer n)).render = (toString n).toList := by
    rw [render, renderNumber]
  apply reads_of_succ
  · rw [hrender, hstart]
    exact Nat.succ_pos _
  · intro fuel rest _ hrest
    rw [hrender, hstart, List.cons_append, Document.value?_numeral hc, ← List.cons_append, ← hstart,
      Document.numeral?_integer hrest, Option.map_some]
    dsimp only
    rw [Numeral.value?_ofInt h, toDocument]

theorem reads_text (s : String) : (Json.text s).Reads := by
  apply reads_of_succ
  · exact Nat.succ_pos _
  · intro fuel rest _ _
    rw [render, renderText, List.cons_append, List.append_assoc, Document.value?_quote,
      List.singleton_append, Document.text?_escape]
    rfl

/-- What a value starts with is not skipped, and closes no bracket. -/
theorem IsExact.exists_start (h : v.IsExact) :
    ∃ c cs, v.render = c :: cs ∧ Document.isSpace c = false ∧ c ≠ ']' := by
  cases h with
  | null => exact ⟨_, _, rfl, by decide, by decide⟩
  | boolean b => cases b <;> exact ⟨_, _, rfl, by decide, by decide⟩
  | @integer n hn =>
      obtain ⟨c, cs, hstart, hc⟩ := exists_start_integer n
      exact ⟨c, cs, hstart, Document.isSpace_numeral hc, by rintro rfl; simp at hc⟩
  | text s => exact ⟨_, _, rfl, by decide, by decide⟩
  | @array items => cases items <;> exact ⟨_, _, rfl, by decide, by decide⟩
  | @object members => cases members <;> exact ⟨_, _, rfl, by decide, by decide⟩

theorem reads_array {items : List Json} (h : ∀ item ∈ items, item.Reads)
    (hstart : ∀ item ∈ items, item.IsExact) : (Json.array items).Reads := by
  cases items with
  | nil => exact reads_of_succ (Nat.succ_pos _) fun _ _ _ _ => rfl
  | cons first more =>
      apply reads_of_succ
      · exact Nat.succ_pos _
      · intro fuel rest hfuel _
        obtain ⟨c, cs, hfirst, hspace, hclose⟩ := (hstart first List.mem_cons_self).exists_start
        have hitems : Document.items? fuel (first.render ++ (renderItems more ++ ']' :: rest)) =
            some (toDocuments (first :: more), rest) := Document.items?_render h (by
          simp only [render, List.length_cons, List.length_append, List.length_nil] at hfuel ⊢
          omega)
        rw [render]
        simp only [List.cons_append, List.append_assoc, List.nil_append]
        rw [hfirst, List.cons_append] at hitems ⊢
        rw [Document.value?_bracket hspace hclose, hitems]
        rfl

theorem reads_object {members : List (String × Json)} (h : ∀ member ∈ members, member.2.Reads) :
    (Json.object members).Reads := by
  cases members with
  | nil => exact reads_of_succ (Nat.succ_pos _) fun _ _ _ _ => rfl
  | cons member more =>
      obtain ⟨name, first⟩ := member
      apply reads_of_succ
      · exact Nat.succ_pos _
      · intro fuel rest hfuel _
        have hmembers : Document.members? fuel
            (renderText name ++ ':' :: (first.render ++ (renderMembers more ++ '\x7d' :: rest))) =
              some (toMembers ((name, first) :: more), rest) := Document.members?_render h (by
          simp only [render, List.length_cons, List.length_append, List.length_nil] at hfuel ⊢
          omega)
        rw [render]
        simp only [renderText, List.cons_append, List.append_assoc, List.nil_append]
          at hmembers ⊢
        rw [Document.value?_brace, hmembers]
        rfl

/-- A value without doubles is read back from its compact text. -/
theorem IsExact.reads (h : v.IsExact) : v.Reads := by
  induction h with
  | null => exact reads_of_succ (Nat.succ_pos _) fun _ _ _ _ => rfl
  | boolean b => cases b <;> exact reads_of_succ (Nat.succ_pos _) fun _ _ _ _ => rfl
  | integer hn => exact reads_integer hn
  | text s => exact reads_text s
  | array h ih => exact reads_array ih h
  | object h ih => exact reads_object ih

theorem IsExact.parse?_compact (h : v.IsExact) : Document.parse? v.compact = some v.toDocument := by
  have hread := h.reads (Nat.le_succ v.render.length) endsNumeral_nil
  rw [List.append_nil] at hread
  rw [Document.parse?, compact, String.toList_ofList]
  simp only [hread, Option.bind_eq_bind, Option.bind_some]
  rfl

section Controls

/-- None of the characters is one of the first 32. -/
def FreeOfControls (cs : List Char) : Prop := ∀ c ∈ cs, 0x20 ≤ c.toNat

@[simp] theorem freeOfControls_nil : FreeOfControls [] := List.forall_mem_nil _

@[simp] theorem freeOfControls_cons {c : Char} {cs : List Char} :
    FreeOfControls (c :: cs) ↔ 0x20 ≤ c.toNat ∧ FreeOfControls cs :=
  List.forall_mem_cons

@[simp] theorem freeOfControls_append {cs ds : List Char} :
    FreeOfControls (cs ++ ds) ↔ FreeOfControls cs ∧ FreeOfControls ds :=
  List.forall_mem_append

theorem le_toNat_digitChar (n : Nat) : 0x20 ≤ (Nat.digitChar n).toNat := by
  rcases Nat.lt_or_ge n 16 with hn | hn
  · have hdigits : ∀ d < 16, 0x20 ≤ (Nat.digitChar d).toNat := by decide
    exact hdigits n hn
  · obtain ⟨k, rfl⟩ := Nat.exists_eq_add_of_le' hn
    have hstar : Nat.digitChar (k + 16) = '*' := rfl
    rw [hstar]
    decide

theorem freeOfControls_hex (n : Nat) :
    FreeOfControls [Nat.digitChar (n / 16), Nat.digitChar (n % 16)] := by
  simp only [freeOfControls_cons, freeOfControls_nil, and_true]
  exact ⟨le_toNat_digitChar _, le_toNat_digitChar _⟩

theorem freeOfControls_escape (c : Char) : FreeOfControls (escape c) := by
  by_cases hcontrol : c.toNat < 0x20
  · have hhex := freeOfControls_hex c.toNat
    rw [escape]
    split_ifs
    all_goals simp_all
  · rw [escape]
    split_ifs
    all_goals simp_all

theorem freeOfControls_renderText (s : String) : FreeOfControls (renderText s) := by
  have htext : FreeOfControls (s.toList.flatMap escape) := by
    intro c hc
    obtain ⟨d, -, hd⟩ := List.mem_flatMap.mp hc
    exact freeOfControls_escape d c hd
  simp [renderText, htext]

theorem freeOfControls_integer (n : Int) : FreeOfControls (toString n).toList := by
  have hdigits : ∀ m : Nat, FreeOfControls (Nat.toDigits 10 m) := by
    intro m c hc
    have hdigit := isDigit_of_mem_digits hc
    simp only [Char.isDigit, Bool.and_eq_true, decide_eq_true_eq, UInt32.le_iff_toNat_le] at hdigit
    exact Nat.le_trans (by decide) hdigit.1
  rw [Int.toString_eq_repr, Int.repr_eq_if]
  split <;> simp [hdigits]

theorem freeOfControls_digitChars (ds : List Nat) : FreeOfControls (Double.digitChars ds) := by
  intro c hc
  obtain ⟨d, -, rfl⟩ := List.mem_map.mp hc
  exact le_toNat_digitChar d

theorem freeOfControls_zeros (n : Nat) : FreeOfControls (Double.zeros n) := by
  intro c hc
  rw [List.eq_of_mem_replicate hc]
  decide

theorem freeOfControls_positional {cs : List Char} (h : FreeOfControls cs) (place : Int) :
    FreeOfControls (Double.positional cs place) := by
  have htake : ∀ n, FreeOfControls (cs.take n) := fun n c hc => h c (List.mem_of_mem_take hc)
  have hdrop : ∀ n, FreeOfControls (cs.drop n) := fun n c hc => h c (List.mem_of_mem_drop hc)
  rw [Double.positional]
  split_ifs <;> simp [h, htake, hdrop, freeOfControls_zeros]

theorem freeOfControls_scientific {cs : List Char} (h : FreeOfControls cs) (place : Int) :
    FreeOfControls (Double.scientific cs place) := by
  have hexponent : FreeOfControls ('e' :: (toString (place - 1)).toList) :=
    freeOfControls_cons.mpr ⟨by decide, freeOfControls_integer _⟩
  rw [Double.scientific.eq_def]
  dsimp only
  split
  · exact hexponent
  · rw [freeOfControls_cons] at h ⊢
    exact ⟨h.1, hexponent⟩
  · rw [freeOfControls_cons] at h ⊢
    rw [freeOfControls_cons, freeOfControls_append]
    exact ⟨h.1, by decide, h.2, hexponent⟩

theorem freeOfControls_double (bits : UInt64) : FreeOfControls (Double.text bits).toList := by
  have hsigned : ∀ negative cs, FreeOfControls cs →
      FreeOfControls (Double.signed negative cs).toList := by
    intro negative cs h
    cases negative <;> simpa [Double.signed] using h
  rw [Double.text]
  dsimp only
  split_ifs
  · exact hsigned _ _ (by simp)
  · exact hsigned _ _ (freeOfControls_positional (freeOfControls_digitChars _) _)
  · exact hsigned _ _ (freeOfControls_scientific (freeOfControls_digitChars _) _)

mutual

/-- Every control character in a compact text is escaped. -/
theorem freeOfControls_render : ∀ v : Json, FreeOfControls v.render
  | .null => by simp [render]
  | .boolean b => by cases b <;> simp [render]
  | .number (.integer n) => freeOfControls_integer n
  | .number (.double bits) => freeOfControls_double bits
  | .text s => freeOfControls_renderText s
  | .array [] => by simp [render]
  | .array (first :: more) => by
      simp [render, freeOfControls_render first, freeOfControls_renderItems more]
  | .object [] => by simp [render]
  | .object ((name, first) :: more) => by
      simp [render, freeOfControls_renderText, freeOfControls_render first,
        freeOfControls_renderMembers more]

theorem freeOfControls_renderItems : ∀ items : List Json, FreeOfControls (renderItems items)
  | [] => by simp [renderItems]
  | first :: more => by
      simp [renderItems, freeOfControls_render first, freeOfControls_renderItems more]

theorem freeOfControls_renderMembers :
    ∀ members : List (String × Json), FreeOfControls (renderMembers members)
  | [] => by simp [renderMembers]
  | (name, first) :: more => by
      simp [renderMembers, freeOfControls_renderText, freeOfControls_render first,
        freeOfControls_renderMembers more]

end

/-- A compact text is on one line. -/
theorem lineFeed_notMem_render (v : Json) : '\n' ∉ v.render :=
  fun hmem => absurd (freeOfControls_render v '\n' hmem) (by decide)

end Controls

end Json

end Automation
