/-
Tables: finite maps kept as lists in the order in which their keys were first put.

Every operation is described by what `get?` says afterwards.
-/

namespace Automation

/-- A list of keys and values in which the first value of a key counts. -/
abbrev Table (κ α : Type) := List (κ × α)

namespace Table

variable {κ α : Type} [DecidableEq κ]

/-- The value of a key. -/
def get? (key : κ) : Table κ α → Option α
  | [] => none
  | (other, value) :: rest => if other = key then some value else get? key rest

/-- Put a value in the place of the one the key has, or at the end. -/
def put (key : κ) (value : α) : Table κ α → Table κ α
  | [] => [(key, value)]
  | (other, old) :: rest =>
      if other = key then (key, value) :: rest else (other, old) :: put key value rest

/-- Keep only the keys of a class. -/
def keep (p : κ → Bool) (table : Table κ α) : Table κ α :=
  table.filter fun entry => p entry.1

/-- The table without a key. -/
def erase (key : κ) (table : Table κ α) : Table κ α :=
  keep (fun other => other ≠ key) table

@[simp] theorem get?_nil (key : κ) : get? key ([] : Table κ α) = none := rfl

theorem get?_put (key other : κ) (value : α) (table : Table κ α) :
    get? other (put key value table) = if other = key then some value else get? other table := by
  induction table with
  | nil => simp [put, get?, eq_comm]
  | cons entry rest ih =>
      obtain ⟨first, old⟩ := entry
      by_cases hfirst : first = key
      · subst hfirst
        by_cases hother : other = first
        · simp [put, get?, hother]
        · simp [put, get?, hother, Ne.symm hother]
      · by_cases hother : first = other
        · subst hother
          simp [put, get?, hfirst]
        · simp [put, get?, hfirst, hother, ih]

theorem get?_keep (p : κ → Bool) (key : κ) (table : Table κ α) :
    get? key (keep p table) = if p key then get? key table else none := by
  induction table with
  | nil => simp [keep, get?]
  | cons entry rest ih =>
      obtain ⟨first, old⟩ := entry
      simp only [keep] at ih
      by_cases hfirst : first = key
      · subst hfirst
        by_cases hp : p first = true
        · simp [keep, get?, hp]
        · simp [keep, hp, ih]
      · by_cases hp : p first = true
        · simp [keep, get?, hp, hfirst, ih]
        · simp [keep, get?, hp, hfirst, ih]

theorem get?_erase (key other : κ) (table : Table κ α) :
    get? other (erase key table) = if other = key then none else get? other table := by
  by_cases h : other = key <;> simp [erase, get?_keep, h]

/-- What is at a key is in the list. -/
theorem mem_of_get? {key : κ} {value : α} {table : Table κ α} (h : get? key table = some value) :
    (key, value) ∈ table := by
  induction table with
  | nil => cases h
  | cons entry rest ih =>
      obtain ⟨other, found⟩ := entry
      rw [get?] at h
      split at h
      · next hsame =>
        obtain rfl := Option.some.inj h
        exact hsame ▸ List.mem_cons_self
      · exact List.mem_cons_of_mem _ (ih h)

/-- Entries of other keys at the end do not count. -/
theorem get?_append_of_forall_ne {key : κ} {first second : Table κ α}
    (h : ∀ entry ∈ second, entry.1 ≠ key) : get? key (first ++ second) = get? key first := by
  induction first with
  | nil =>
      cases hget : get? key second with
      | none => exact hget
      | some value => exact absurd rfl (h _ (mem_of_get? hget))
  | cons entry rest ih =>
      obtain ⟨other, value⟩ := entry
      rw [List.cons_append, get?, get?, ih]

/-- A key in the list has a value, though it may be another one. -/
theorem get?_ne_none_of_mem {key : κ} {value : α} {table : Table κ α}
    (h : (key, value) ∈ table) : get? key table ≠ none := by
  induction table with
  | nil => cases h
  | cons entry rest ih =>
      obtain ⟨other, found⟩ := entry
      rw [get?]
      split
      · exact Option.some_ne_none _
      · next hne =>
        rcases List.mem_cons.mp h with heq | hrest
        · exact absurd (Prod.mk.inj heq).1.symm hne
        · exact ih hrest

end Table

end Automation
