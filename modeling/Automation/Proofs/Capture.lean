import Automation.Surroundings
import Automation.Tool

/-
Capture of a stream, whatever pieces it arrives in.

What is captured after some pieces is what one would capture of their octets if these were all at hand
at once.  One piece more keeps that true wherever the limit falls: in the octets before, at their end,
within the piece or past it.
-/

namespace Automation

/-- The octets of a stream that arrives in pieces. -/
def arrived (pieces : List ByteArray) : List UInt8 := pieces.flatMap (·.data.toList)

/-- What is captured of octets that are all at hand at once. -/
def Captured.whole (limit : Nat) (stream : List UInt8) : Captured :=
  ⟨⟨(stream.take limit).toArray⟩, stream.length - limit⟩

section Stream

variable (limit : Nat) (stream : List UInt8) (piece : ByteArray) (pieces : List ByteArray)

@[simp] theorem arrived_cons : arrived (piece :: pieces) = piece.data.toList ++ arrived pieces := rfl

theorem toList_foldl_append (before : ByteArray) :
    (pieces.foldl (· ++ ·) before).data.toList = before.data.toList ++ arrived pieces := by
  induction pieces generalizing before with
  | nil => simp [arrived]
  | cons piece pieces ih =>
      rw [List.foldl_cons, ih, ByteArray.toList_data_append, arrived_cons, List.append_assoc]

theorem toList_joined : (Surroundings.joined pieces).data.toList = arrived pieces :=
  toList_foldl_append pieces ByteArray.empty

namespace Captured

theorem whole_nil : whole limit [] = .nothing := by
  rw [whole, List.take_nil, List.length_nil, Nat.zero_sub]
  rfl

theorem size_whole : (whole limit stream).kept.size = min limit stream.length := by
  simp [whole, ByteArray.size]

/-- One piece more is captured as if it had been at hand with the octets before it. -/
theorem add_whole :
    (whole limit stream).add limit piece = whole limit (stream ++ piece.data.toList) := by
  have hpiece : piece.data.toList.length = piece.size := rfl
  -- Past the limit there is no room, and a difference of numbers is zero there.
  have hroom : limit - min limit stream.length = limit - stream.length := by omega
  have hkept : (piece.extract 0 (min piece.size (limit - stream.length))).data.toList =
      piece.data.toList.take (limit - stream.length) := by
    rw [ByteArray.data_extract, Array.toList_extract, List.extract_eq_take_drop, List.drop_zero,
      Nat.sub_zero, ← hpiece, Nat.min_comm, ← List.take_eq_take_min]
  have hdropped : stream.length - limit + (piece.size - min piece.size (limit - stream.length)) =
      (stream ++ piece.data.toList).length - limit := by
    rw [List.length_append, hpiece]
    omega
  rw [add, size_whole, hroom]
  refine Captured.mk.injEq .. |>.mpr ⟨ByteArray.ext (Array.toList_inj.mp ?_), hdropped⟩
  rw [ByteArray.toList_data_append, hkept]
  exact List.take_append.symm

theorem foldl_add_whole :
    pieces.foldl (add limit) (whole limit stream) = whole limit (stream ++ arrived pieces) := by
  induction pieces generalizing stream with
  | nil => simp [arrived]
  | cons piece pieces ih =>
      rw [List.foldl_cons, add_whole, ih, arrived_cons, List.append_assoc]

end Captured

theorem capture_eq_whole : capture limit pieces = .whole limit (arrived pieces) := by
  rw [capture, ← Captured.whole_nil limit, Captured.foldl_add_whole, List.nil_append]

/-- However a stream is cut into pieces, what is kept are its first octets up to the limit, and what is
counted are all others; another way to cut it makes no difference. -/
theorem capture_stream :
    (capture limit pieces).kept.data.toList =
        (arrived pieces).take (min limit (arrived pieces).length) ∧
      (capture limit pieces).dropped =
        (arrived pieces).length - min limit (arrived pieces).length ∧
      (capture limit pieces).kept.size + (capture limit pieces).dropped = (arrived pieces).length ∧
      (capture limit pieces).kept.size ≤ limit ∧
      ∀ others, arrived others = arrived pieces → capture limit others = capture limit pieces := by
  have hsize : (capture limit pieces).kept.size = min limit (arrived pieces).length := by
    rw [capture_eq_whole, Captured.size_whole]
  have hdropped : (capture limit pieces).dropped = (arrived pieces).length - limit := by
    rw [capture_eq_whole, Captured.whole]
  refine ⟨?_, ?_, ?_, ?_, fun others hothers => ?_⟩
  · rw [capture_eq_whole, ← List.take_eq_take_min]
    rfl
  · rw [hdropped]
    omega
  · rw [hsize, hdropped]
    omega
  · rw [hsize]
    exact Nat.min_le_left _ _
  · rw [capture_eq_whole, capture_eq_whole, hothers]

theorem arrived_filter_size :
    arrived (pieces.filter fun piece => piece.size != 0) = arrived pieces := by
  induction pieces with
  | nil => rfl
  | cons piece pieces ih =>
      rw [List.filter_cons]
      split
      · rw [arrived_cons, arrived_cons, ih]
      · next hempty =>
        have hnone : piece.data.toList = [] := List.length_eq_zero_iff.mp (by simpa using hempty)
        rw [ih, arrived_cons, hnone, List.nil_append]

/-- A piece without octets makes no difference, so that only the others need to be read. -/
theorem capture_filter_size :
    capture limit (pieces.filter fun piece => piece.size != 0) = capture limit pieces := by
  rw [capture_eq_whole, arrived_filter_size, ← capture_eq_whole]

end Stream

/-- The limit falls within the second piece. -/
example : (capture 3 ["ab".toUTF8, "cde".toUTF8, "f".toUTF8]).dropped = 3 := by decide +kernel

/-- A tool that has finished leaves the first octets of both outputs, and the number of all others. -/
theorem ToolOutput.ofFinished_eq (limit : Nat) (f : Finished) :
    ToolOutput.ofFinished limit f =
      ⟨f.ending, (Captured.whole limit (arrived f.output)).kept,
        (Captured.whole limit (arrived f.errors)).kept,
        ((arrived f.output).length - limit) + ((arrived f.errors).length - limit)⟩ := by
  rw [ofFinished, capture_eq_whole, capture_eq_whole]
  rfl

end Automation
