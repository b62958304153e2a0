/-
Bounded capture of a stream.

A stream arrives in pieces of any size.  The first bytes up to a limit are kept and the others
are counted; how the stream was cut into pieces makes no difference.
-/

namespace Automation

/-- What is kept of a stream, and how much of it is not. -/
structure Captured where
  kept : ByteArray
  dropped : Nat

namespace Captured

def nothing : Captured := ⟨ByteArray.empty, 0⟩

/-- Take in one piece. -/
def add (limit : Nat) (c : Captured) (piece : ByteArray) : Captured :=
  let count := min piece.size (limit - c.kept.size)
  ⟨c.kept ++ piece.extract 0 count, c.dropped + (piece.size - count)⟩

/-- Every byte is either kept or counted. -/
theorem size_add (limit : Nat) (c : Captured) (piece : ByteArray) :
    (c.add limit piece).kept.size + (c.add limit piece).dropped =
      c.kept.size + c.dropped + piece.size := by
  simp only [add, ByteArray.size_append, ByteArray.size_extract]
  omega

/-- No more is kept than the limit says. -/
theorem size_kept_add_le (limit : Nat) (c : Captured) (piece : ByteArray)
    (h : c.kept.size ≤ limit) : (c.add limit piece).kept.size ≤ limit := by
  simp only [add, ByteArray.size_append, ByteArray.size_extract]
  omega

end Captured

/-- Capture a stream that arrives in pieces. -/
def capture (limit : Nat) (pieces : List ByteArray) : Captured :=
  pieces.foldl (Captured.add limit) .nothing

end Automation
