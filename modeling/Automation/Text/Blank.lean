/-
White space at the ends of a text.

The class is the White_Space property, which is wider than the blanks of ASCII and narrower than
"looks empty": the zero width space and the byte order mark are not in it.
-/

namespace Automation.Text

/-- The characters with the White_Space property. -/
def isBlank (c : Char) : Bool :=
  let n := c.toNat
  (0x9 ≤ n && n ≤ 0xd) || n == 0x20 || n == 0x85 || n == 0xa0 || n == 0x1680 ||
    (0x2000 ≤ n && n ≤ 0x200a) || n == 0x2028 || n == 0x2029 || n == 0x202f ||
    n == 0x205f || n == 0x3000

/-- Drop the characters of a class from both ends of a list of characters. -/
def stripEnds (drop : Char → Bool) (cs : List Char) : List Char :=
  ((cs.dropWhile drop).reverse.dropWhile drop).reverse

/-- The text without the white space at its two ends. -/
def trim (text : String) : String :=
  String.ofList (stripEnds isBlank text.toList)

/-- A text with nothing in it but white space. -/
def isAllBlank (text : String) : Bool :=
  text.toList.all isBlank

theorem stripEnds_nil (drop : Char → Bool) : stripEnds drop [] = [] := rfl

theorem isBlank_of_isWhitespace {c : Char} (hc : c.isWhitespace = true) : isBlank c = true := by
  simp only [Char.isWhitespace, Bool.or_eq_true, decide_eq_true_eq] at hc
  rcases hc with ((rfl | rfl) | rfl) | rfl <;> decide

end Automation.Text
