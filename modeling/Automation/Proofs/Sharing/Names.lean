import Automation.Address
import Automation.Environment
import Automation.Proofs.Files.Resolution

/-
The names in a shadow directory.

An owner is named after its process, and its name could be an address: it is made of letters,
digits and hyphens.  So it is a plain name that says which process it belongs to, and it differs
from the names of claims that are still pending and from that of their directory.
-/

namespace Automation

/-- The characters of addresses are few, and they have one byte each. -/
theorem toNat_of_isAddressChar {c : Char} (h : isAddressChar c = true) :
    (48 ≤ c.toNat ∧ c.toNat ≤ 57) ∨ (65 ≤ c.toNat ∧ c.toNat ≤ 90) ∨
      (97 ≤ c.toNat ∧ c.toNat ≤ 122) ∨ c.toNat = 45 ∨ c.toNat = 95 := by
  have hcases : (((c.isUpper || c.isLower) || c.isDigit) || c == '-' || c == '_') = true := h
  have hbetween : ∀ low high : Char, low.val ≤ c.val ∧ c.val ≤ high.val →
      low.toNat ≤ c.toNat ∧ c.toNat ≤ high.toNat := by
    intro low high hrange
    exact ⟨UInt32.le_iff_toNat_le.mp hrange.1, UInt32.le_iff_toNat_le.mp hrange.2⟩
  have hboth : ∀ low high : Char, (decide (low.val ≤ c.val) && decide (c.val ≤ high.val)) = true →
      low.val ≤ c.val ∧ c.val ≤ high.val := by
    intro low high hrange
    rwa [Bool.and_eq_true, decide_eq_true_eq, decide_eq_true_eq] at hrange
  simp only [Bool.or_eq_true, beq_iff_eq] at hcases
  rcases hcases with (((upper | lower) | digit) | rfl) | rfl
  · exact Or.inr (Or.inl (hbetween 'A' 'Z' (of_decide_eq_true upper)))
  · exact Or.inr (Or.inr (Or.inl (hbetween 'a' 'z' (hboth 'a' 'z' lower))))
  · exact Or.inl (hbetween '0' '9' (hboth '0' '9' digit))
  · exact Or.inr (Or.inr (Or.inr (Or.inl rfl)))
  · exact Or.inr (Or.inr (Or.inr (Or.inr rfl)))

theorem utf8Size_of_isAddressChar {c : Char} (h : isAddressChar c = true) : c.utf8Size = 1 := by
  have hrange := toNat_of_isAddressChar h
  have hle : c.toNat ≤ 127 := by omega
  exact Char.utf8Size_eq_one_iff.mpr (UInt32.le_iff_toNat_le.mpr hle)

theorem isBlank_of_isAddressChar {c : Char} (h : isAddressChar c = true) :
    Text.isBlank c = false := by
  have hrange := toNat_of_isAddressChar h
  simp only [Text.isBlank, Bool.or_eq_false_iff, Bool.and_eq_false_iff, decide_eq_false_iff_not,
    beq_eq_false_iff_ne]
  omega

theorem ne_of_isAddressChar {c d : Char} (h : isAddressChar c = true)
    (hd : isAddressChar d = false) : c ≠ d := by
  rintro rfl
  rw [h] at hd
  cases hd

theorem utf8ByteSize_ofList_of_all {cs : List Char} (h : ∀ c ∈ cs, isAddressChar c = true) :
    (String.ofList cs).utf8ByteSize = cs.length := by
  induction cs with
  | nil => rfl
  | cons c rest ih =>
      have hrest := ih fun d hd => h d (List.mem_cons_of_mem c hd)
      rw [← List.singleton_append, String.ofList_append, String.utf8ByteSize_append, hrest,
        ← String.singleton_eq_ofList, String.utf8ByteSize_singleton,
        utf8Size_of_isAddressChar (h c List.mem_cons_self), List.length_append]
      rfl

theorem dropWhile_isBlank_of_all {cs : List Char} (h : ∀ c ∈ cs, isAddressChar c = true) :
    cs.dropWhile Text.isBlank = cs := by
  cases cs with
  | nil => rfl
  | cons c rest =>
      rw [List.dropWhile_cons, isBlank_of_isAddressChar (h c List.mem_cons_self)]
      rfl

section

variable {address : String}

theorem ne_empty_of_isAddress (h : isAddress address = true) : address ≠ "" := by
  rw [isAddress, Bool.and_eq_true] at h
  rintro rfl
  exact absurd h.1 (by decide)

theorem isAddressChar_of_mem (h : isAddress address = true) :
    ∀ c ∈ address.toList, isAddressChar c = true := by
  rw [isAddress, Bool.and_eq_true] at h
  exact List.all_eq_true.mp h.2

/-- A character that no address has. -/
theorem notMem_of_isAddress (h : isAddress address = true) {d : Char}
    (hd : isAddressChar d = false) : d ∉ address.toList :=
  fun hmem => ne_of_isAddressChar (isAddressChar_of_mem h d hmem) hd rfl

theorem isName_of_isAddress (h : isAddress address = true) : IsName address := by
  have hdot : '.' ∉ address.toList := notMem_of_isAddress h (by decide)
  constructor
  · exact ne_empty_of_isAddress h
  · rintro rfl
    exact hdot (by decide)
  · rintro rfl
    exact hdot (by decide)
  · exact notMem_of_isAddress h (by decide)
  · exact notMem_of_isAddress h (by decide)

theorem utf8ByteSize_of_isAddress (h : isAddress address = true) :
    address.utf8ByteSize = address.length := by
  have hsize := utf8ByteSize_ofList_of_all (isAddressChar_of_mem h)
  rwa [String.ofList_toList, String.length_toList] at hsize

theorem trim_of_isAddress (h : isAddress address = true) : Text.trim address = address := by
  have hchars := isAddressChar_of_mem h
  have hreverse : ∀ c ∈ address.toList.reverse, isAddressChar c = true :=
    fun c hc => hchars c (List.mem_reverse.mp hc)
  rw [Text.trim, Text.stripEnds, dropWhile_isBlank_of_all hchars,
    dropWhile_isBlank_of_all hreverse, List.reverse_reverse, String.ofList_toList]

end

theorem isName_claimsName : IsName Environment.claimsName := by
  constructor <;> decide

theorem mem_of_mem_freshName {c : Char} {width n : Nat} (h : c ∈ freshName width n) :
    c ∈ nameDigits := by
  induction width generalizing n with
  | zero => cases h
  | succ width ih =>
      rw [freshName] at h
      rcases List.mem_append.mp h with h | h
      · exact ih h
      · obtain rfl := List.mem_singleton.mp h
        have hlt : n % nameDigits.length < nameDigits.length := Nat.mod_lt _ (by decide)
        rw [List.getD_eq_getElem?_getD, List.getElem?_eq_getElem hlt, Option.getD_some]
        exact List.getElem_mem hlt

theorem length_freshName (width n : Nat) : (freshName width n).length = width := by
  induction width generalizing n with
  | zero => rfl
  | succ width ih => simp [freshName, ih]

/-- A fresh name could be an address. -/
theorem isAddress_freshName {width : Nat} (hwidth : width ≠ 0) (n : Nat) :
    isAddress (String.ofList (freshName width n)) = true := by
  have hall : nameDigits.all isAddressChar = true := by decide
  have hne : freshName width n ≠ [] := by
    rwa [← List.length_pos_iff, length_freshName, Nat.pos_iff_ne_zero]
  rw [isAddress, Bool.and_eq_true, String.toList_ofList, List.all_eq_true]
  refine ⟨by simpa using hne, fun c hc => ?_⟩
  exact List.all_eq_true.mp hall c (mem_of_mem_freshName hc)

namespace Environment

/-- A number is read as it is written. -/
theorem natOfText?_toDigits (n : Nat) : natOfText? (Nat.toDigits 10 n) = some n := by
  have hdigit : ∀ c ∈ Nat.toDigits 10 n, c.isDigit = true :=
    fun c hc => Nat.isDigit_of_mem_toDigits (by decide) (by decide) hc
  have hvalue : (Nat.toDigits 10 n).foldl (fun n c => n * 10 + (c.toNat - '0'.toNat)) 0 = n := by
    have hten := Nat.ofDigitChars_ten_toDigits (n := n)
    rw [Nat.ofDigitChars_eq_foldl] at hten
    simpa only [Nat.mul_comm] using hten
  have hall : (Nat.toDigits 10 n).all Char.isDigit = true := List.all_eq_true.mpr hdigit
  cases hcs : Nat.toDigits 10 n with
  | nil => exact absurd hcs Nat.toDigits_ne_nil
  | cons c rest =>
      have hplus : c ≠ '+' := by
        rintro rfl
        exact absurd (hdigit '+' (hcs ▸ List.mem_cons_self)) (by decide)
      rw [hcs] at hvalue hall
      have hsigned : natOfText? (c :: rest) =
          if c :: rest = [] ∨ !(c :: rest).all Char.isDigit then none
          else some ((c :: rest).foldl (fun n c => n * 10 + (c.toNat - '0'.toNat)) 0) := by
        simp [natOfText?, hplus]
      rw [hsigned, if_neg (by simp [hall]), hvalue]

/-- A number is written with the characters of addresses. -/
theorem isAddress_toString (n : Nat) : Automation.isAddress (toString n) = true := by
  have hdigits : (toString n).toList = Nat.toDigits 10 n := by simp
  rw [Automation.isAddress, Bool.and_eq_true, List.all_eq_true, hdigits]
  refine ⟨by simp, fun c hc => ?_⟩
  have hdigit := Nat.isDigit_of_mem_toDigits (by decide) (by decide) hc
  have halnum : c.isAlphanum = true := by
    change (c.isAlpha || c.isDigit) = true
    rw [hdigit, Bool.or_true]
  rw [isAddressChar, halnum]
  rfl

/-- Numbers that are written the same are the same. -/
theorem toString_inj {m n : Nat} (h : toString m = toString n) : m = n := by
  have hdigits : ∀ k : Nat, (toString k).toList = Nat.toDigits 10 k := by simp
  have hread := natOfText?_toDigits m
  rw [← hdigits, h, hdigits, natOfText?_toDigits] at hread
  exact (Option.some.inj hread).symm

/-- The names of the snapshot directories of a process. -/
def IsOwnerOf (pid : Nat) (name : String) : Prop :=
  ∃ n, name = toString pid ++ "-" ++ String.ofList (freshName snapshotWidth n)

/-- The names of the snapshot directories of all processes. -/
def IsOwner (name : String) : Prop := ∃ pid < pidLimit, IsOwnerOf pid name

namespace IsOwnerOf

variable {pid : Nat} {name : String}

theorem toList (h : IsOwnerOf pid name) :
    ∃ n, name.toList = Nat.toDigits 10 pid ++ '-' :: freshName snapshotWidth n := by
  obtain ⟨n, rfl⟩ := h
  exact ⟨n, by simp⟩

theorem isAddress (h : IsOwnerOf pid name) : isAddress name = true := by
  obtain ⟨n, hname⟩ := h.toList
  have hne : name.isEmpty = false := by
    rw [← Bool.not_eq_true, String.isEmpty_iff]
    rintro rfl
    simp at hname
  rw [Automation.isAddress, hne, Bool.not_false, Bool.true_and, List.all_eq_true, hname]
  intro c hc
  rcases List.mem_append.mp hc with hc | hc
  · have hdigit := Nat.isDigit_of_mem_toDigits (by decide) (by decide) hc
    have halnum : c.isAlphanum = true := by
      change (c.isAlpha || c.isDigit) = true
      rw [hdigit, Bool.or_true]
    rw [isAddressChar, halnum]
    rfl
  · rcases List.mem_cons.mp hc with rfl | hc
    · decide
    · have hall : nameDigits.all isAddressChar = true := by decide
      exact List.all_eq_true.mp hall c (mem_of_mem_freshName hc)

theorem isName (h : IsOwnerOf pid name) : IsName name := isName_of_isAddress h.isAddress

theorem size (h : IsOwnerOf pid name) (hpid : pid < pidLimit) :
    8 ≤ name.utf8ByteSize ∧ name.utf8ByteSize ≤ 17 := by
  obtain ⟨n, hname⟩ := h.toList
  have hdigits : (Nat.toDigits 10 pid).length ≤ 10 :=
    (Nat.length_toDigits_le_iff (by decide) (by decide)).mpr (Nat.lt_trans hpid (by decide))
  have hpos : 0 < (Nat.toDigits 10 pid).length := Nat.length_toDigits_pos
  rw [utf8ByteSize_of_isAddress h.isAddress, ← String.length_toList, hname, List.length_append,
    List.length_cons, length_freshName, snapshotWidth]
  omega

/-- The name of an owner tells its process. -/
theorem ownerPid? (h : IsOwnerOf pid name) (hpid : pid < pidLimit) :
    ownerPid? name = some pid := by
  obtain ⟨n, hname⟩ := h.toList
  have hdigit : ∀ c ∈ Nat.toDigits 10 pid, c.isDigit = true :=
    fun c hc => Nat.isDigit_of_mem_toDigits (by decide) (by decide) hc
  have hhyphen : ∀ c ∈ Nat.toDigits 10 pid, decide (c ≠ '-') = true := by
    intro c hc
    rw [decide_eq_true_eq]
    rintro rfl
    exact absurd (hdigit '-' hc) (by decide)
  have htake : name.toList.takeWhile (· ≠ '-') = Nat.toDigits 10 pid := by
    rw [hname, List.takeWhile_append_of_pos hhyphen]
    simp
  have hcontains : name.toList.contains '-' = true := by
    rw [hname]
    simp
  rw [Environment.ownerPid?]
  simp only [hcontains, htake, natOfText?_toDigits, ↓reduceIte, Option.filter_some, decide_eq_true hpid]

/-- The directory of a process that is there is not removed with those of the dead. -/
theorem isDead (h : IsOwnerOf pid name) (hpid : pid < pidLimit) (processes : ProcessTable) :
    isDead processes name = !processes.isAlive pid := by
  rw [Environment.isDead, h.ownerPid? hpid]

end IsOwnerOf

namespace IsOwner

variable {name : String}

theorem isAddress (h : IsOwner name) : isAddress name = true := by
  obtain ⟨pid, _, howner⟩ := h
  exact howner.isAddress

theorem isName (h : IsOwner name) : IsName name := isName_of_isAddress h.isAddress

theorem size (h : IsOwner name) : 8 ≤ name.utf8ByteSize ∧ name.utf8ByteSize ≤ 17 := by
  obtain ⟨pid, hpid, howner⟩ := h
  exact howner.size hpid

theorem ne_claimsName (h : IsOwner name) : name ≠ claimsName := by
  rintro rfl
  exact absurd h.isAddress (by decide)

end IsOwner

theorem isDead_claimsName (processes : ProcessTable) : isDead processes claimsName = false := by
  have hnone : ownerPid? claimsName = none := by decide
  rw [isDead, hnone]

end Environment

namespace Claims

/-- What a claim is called while it is written. -/
def pendingName (owner address : String) : String := "." ++ owner ++ "-" ++ address

variable {owner address : String}

theorem pendingName_toList (owner address : String) :
    (pendingName owner address).toList = '.' :: (owner.toList ++ '-' :: address.toList) := by
  simp [pendingName]

theorem isName_pendingName (howner : isAddress owner = true) (haddress : isAddress address = true) :
    IsName (pendingName owner address) := by
  have hchar : ∀ {d : Char}, d ≠ '.' → d ≠ '-' → isAddressChar d = false →
      d ∉ (pendingName owner address).toList := by
    intro d hdot hhyphen hd
    rw [pendingName_toList]
    simp [hdot, hhyphen, notMem_of_isAddress howner hd, notMem_of_isAddress haddress hd]
  have hhyphen : '-' ∈ (pendingName owner address).toList := by
    rw [pendingName_toList]
    simp
  constructor
  · intro h
    rw [h] at hhyphen
    exact absurd hhyphen (by decide)
  · intro h
    rw [h] at hhyphen
    exact absurd hhyphen (by decide)
  · intro h
    rw [h] at hhyphen
    exact absurd hhyphen (by decide)
  · exact hchar (by decide) (by decide) (by decide)
  · exact hchar (by decide) (by decide) (by decide)

theorem pendingName_ne (haddress : isAddress address = true) (owner other : String) :
    pendingName owner other ≠ address := by
  intro h
  have hdot : '.' ∈ (pendingName owner other).toList := by
    rw [pendingName_toList]
    exact List.mem_cons_self
  rw [h] at hdot
  exact notMem_of_isAddress haddress (by decide) hdot

theorem size_pendingName (owner address : String) :
    (pendingName owner address).utf8ByteSize = owner.utf8ByteSize + address.utf8ByteSize + 2 := by
  rw [pendingName, String.utf8ByteSize_append, String.utf8ByteSize_append,
    String.utf8ByteSize_append]
  have hdot : ".".utf8ByteSize = 1 := rfl
  have hhyphen : "-".utf8ByteSize = 1 := rfl
  omega

end Claims

namespace Commons

/-- An address whose pending claim is longer than a name can be. -/
def longAddress : String := String.ofList (List.replicate 250 'a')

theorem toList_longAddress : longAddress.toList = List.replicate 250 'a' :=
  String.toList_ofList

theorem isAddress_longAddress : isAddress longAddress = true := by
  have hne : longAddress.isEmpty = false := by
    rw [← Bool.not_eq_true, String.isEmpty_iff]
    intro hempty
    have hlength := congrArg List.length toList_longAddress
    rw [hempty, List.length_replicate] at hlength
    cases hlength
  have hall : ∀ c ∈ List.replicate 250 'a', isAddressChar c = true := by
    intro c hc
    rw [List.eq_of_mem_replicate hc]
    decide
  rw [isAddress, hne, toList_longAddress, List.all_eq_true.mpr hall]
  rfl

end Commons

end Automation
