import Automation.Proofs.Lines
import Automation.Text.Utf8

/-
Lines of octets and lines of text.

No octet of a longer character is a line feed, and no character that is decoded from several octets
is one, even when the octets are not UTF-8.  So it makes no difference whether octets are decoded and
the text is split into lines, or whether the octets are split and each line is decoded by itself.
-/

namespace Automation.Text

/-- The octet of a line feed. -/
def lineFeed : UInt8 := 10

/-- The octet of a line feed is never a part of a longer character. -/
def DecoderState.Sound : DecoderState → Prop
  | .start => True
  | .within value low high _ => 0x80 ≤ low ∧ high ≤ 0xbf ∧ 10 < value * 0x40 + low % 0x40

theorem ofNat_ne_lineFeed {n : Nat} (h : n ≠ 10) : Char.ofNat n ≠ '\n' := by
  by_cases hvalid : n.isValidChar
  · rw [Char.ofNat, dif_pos hvalid]
    exact fun heq => h (congrArg Char.toNat heq)
  · rw [Char.ofNat, dif_neg hvalid]
    decide

theorem replacement_ne_lineFeed : replacement ≠ '\n' := by decide

theorem sound_decodeFirst (b : Nat) : (decodeFirst b).2.Sound := by
  unfold decodeFirst
  repeat' split
  all_goals simp only [DecoderState.Sound]
  all_goals omega

theorem notMem_decodeFirst {b : Nat} (hb : b ≠ 10) : '\n' ∉ (decodeFirst b).1 := by
  unfold decodeFirst
  repeat' split
  all_goals simp [(ofNat_ne_lineFeed hb).symm, replacement_ne_lineFeed.symm]

/-- The decoder stays sound. -/
theorem DecoderState.Sound.step {state : DecoderState} (h : state.Sound) (b : Nat) :
    (decodeStep state b).2.Sound := by
  cases state with
  | start => exact sound_decodeFirst b
  | within value low high owed =>
      obtain ⟨hlow, hhigh, hvalue⟩ := h
      rw [decodeStep]
      split
      · dsimp only
        split
        · trivial
        · exact ⟨by omega, by omega, by omega⟩
      · exact sound_decodeFirst b

/-- Only the octet of a line feed yields a line feed. -/
theorem DecoderState.Sound.notMem_step {state : DecoderState} (h : state.Sound) {b : Nat}
    (hb : b ≠ 10) : '\n' ∉ (decodeStep state b).1 := by
  cases state with
  | start => exact notMem_decodeFirst hb
  | within value low high owed =>
      obtain ⟨hlow, hhigh, hvalue⟩ := h
      rw [decodeStep]
      split
      · dsimp only
        split
        · have hne : value * 0x40 + b % 0x40 ≠ 10 := by omega
          simp [(ofNat_ne_lineFeed hne).symm]
        · simp
      · simp [notMem_decodeFirst hb, replacement_ne_lineFeed.symm]

/-- The octet of a line feed breaks off what has begun, and yields a line feed. -/
theorem DecoderState.Sound.step_lineFeed {state : DecoderState} (h : state.Sound) :
    decodeStep state lineFeed.toNat = (decodeEnd state ++ ['\n'], .start) := by
  cases state with
  | start => decide
  | within value low high owed =>
      have hout : ¬(low ≤ lineFeed.toNat ∧ lineFeed.toNat ≤ high) := by
        obtain ⟨hlow, -, -⟩ := h
        rw [show lineFeed.toNat = 10 from rfl]
        omega
      rw [decodeStep, if_neg hout]
      rfl

/-- What stands on the two sides of a line feed is decoded on its own. -/
theorem DecoderState.Sound.decodeFrom_append {state : DecoderState} (h : state.Sound)
    (xs ys : List UInt8) :
    decodeFrom state (xs ++ lineFeed :: ys) =
      decodeFrom state xs ++ '\n' :: decodeFrom .start ys := by
  induction xs generalizing state with
  | nil => simp [decodeFrom, h.step_lineFeed]
  | cons b rest ih => simp [decodeFrom, ih (h.step b.toNat)]

theorem DecoderState.Sound.notMem_decodeFrom {state : DecoderState} (h : state.Sound)
    {xs : List UInt8} (hxs : lineFeed ∉ xs) : '\n' ∉ decodeFrom state xs := by
  induction xs generalizing state with
  | nil => cases state <;> simp [decodeFrom, decodeEnd, replacement_ne_lineFeed.symm]
  | cons b rest ih =>
      simp only [List.mem_cons, not_or] at hxs
      have hb : b.toNat ≠ 10 := fun heq => hxs.1 (UInt8.toNat.inj heq.symm)
      simp only [decodeFrom, List.mem_append, not_or]
      exact ⟨h.notMem_step hb, ih (h.step b.toNat) hxs.2⟩

/-- The characters of some octets that are decoded by themselves. -/
def decoded (octets : List UInt8) : List Char := decodeFrom .start octets

theorem decoded_append (xs ys : List UInt8) :
    decoded (xs ++ lineFeed :: ys) = decoded xs ++ '\n' :: decoded ys :=
  DecoderState.Sound.decodeFrom_append (show DecoderState.start.Sound from trivial) xs ys

theorem notMem_decoded {xs : List UInt8} (h : lineFeed ∉ xs) : '\n' ∉ decoded xs :=
  DecoderState.Sound.notMem_decodeFrom (show DecoderState.start.Sound from trivial) h

theorem decoded_intercalate (pieces : List (List UInt8)) :
    decoded (List.intercalate [lineFeed] pieces) =
      List.intercalate ['\n'] (pieces.map decoded) := by
  induction pieces with
  | nil => rfl
  | cons first rest ih =>
      cases rest with
      | nil => simp [List.intercalate]
      | cons second others =>
          rw [List.intercalate_cons_cons, List.append_assoc, List.singleton_append, decoded_append,
            ih]
          simp [List.intercalate_cons_cons]

/-- The lines of decoded octets are the lines of the octets, decoded. -/
theorem splitAt_decoded (octets : List UInt8) :
    splitAt '\n' (decoded octets) = (splitAt lineFeed octets).map decoded := by
  have hjoined := decoded_intercalate (splitAt lineFeed octets)
  rw [intercalate_splitAt] at hjoined
  have hlines : ∀ line ∈ (splitAt lineFeed octets).map decoded, splitAt '\n' line = [line] := by
    intro line hline
    obtain ⟨piece, hpiece, rfl⟩ := List.mem_map.mp hline
    exact splitAt_of_notMem '\n' (notMem_decoded (notMem_of_mem_splitAt lineFeed hpiece))
  rw [hjoined, splitAt_intercalate '\n' (by simp [splitAt_ne_nil]), List.flatMap_congr hlines,
    List.flatMap_singleton']

theorem lines_lossy (bytes : ByteArray) :
    lines (lossy bytes) =
      (splitAt lineFeed bytes.data.toList).map fun line => String.ofList (decoded line) := by
  rw [lines, lossy, String.toList_ofList, ← decoded, splitAt_decoded, List.map_map]
  rfl

end Automation.Text
