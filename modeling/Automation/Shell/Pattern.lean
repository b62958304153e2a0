/-
Patterns.

A star stands for any text, a question mark for any character, and brackets for one of some
characters.  Quoted characters stand for themselves.
-/

namespace Automation.Shell

/-- What stands for one character in a pattern, or for any number of them. -/
inductive PatternItem where
  | many
  | any
  | char (c : Char)
  /-- A character in one of the ranges, or in none of them. -/
  | oneOf (inside : Bool) (ranges : List (Char × Char))
deriving Repr, DecidableEq

namespace Pattern

/-- The ranges between two brackets, and what follows them.  A closing bracket in front stands
for itself. -/
def ranges : Nat → Bool → List (Char × Bool) → List (Char × Char) →
    Option (List (Char × Char) × List (Char × Bool))
  | 0, _, _, _ => none
  | _ + 1, _, [], _ => none
  | fuel + 1, isFirst, (c, quoted) :: rest, found =>
      if c = ']' ∧ quoted = false ∧ !isFirst then some (found.reverse, rest)
      else
        match rest with
        | ('-', false) :: (d, q) :: more =>
            if d = ']' ∧ q = false then ranges fuel false rest ((c, c) :: found)
            else ranges fuel false more ((c, d) :: found)
        | _ => ranges fuel false rest ((c, c) :: found)

/-- The item that an unquoted bracket starts, and what follows it. -/
def bracket? (cs : List (Char × Bool)) : Option (PatternItem × List (Char × Bool)) :=
  let (inside, body) := match cs with
    | ('!', false) :: rest => (false, rest)
    | _ => (true, cs)
  (ranges (cs.length + 1) true body []).map fun (found, rest) => (.oneOf inside found, rest)

/-- The items of a pattern; every character says whether it was quoted. -/
def items : Nat → List (Char × Bool) → List PatternItem
  | 0, _ => []
  | _ + 1, [] => []
  | fuel + 1, (c, quoted) :: rest =>
      if quoted then .char c :: items fuel rest
      else if c = '*' then .many :: items fuel rest
      else if c = '?' then .any :: items fuel rest
      else if c = '[' then
        match bracket? rest with
        | some (item, rest) => item :: items fuel rest
        | none => .char c :: items fuel rest
      else .char c :: items fuel rest

def parse (cs : List (Char × Bool)) : List PatternItem := items (cs.length + 1) cs

/-- Whether an item other than `many` stands for a character. -/
def accepts (c : Char) : PatternItem → Bool
  | .many => false
  | .any => true
  | .char d => c == d
  | .oneOf inside found => inside == found.any fun (low, high) => low ≤ c && c ≤ high

/-- Whether a pattern stands for a text. -/
def isMatch : List PatternItem → List Char → Bool
  | [], cs => cs.isEmpty
  | .many :: rest, [] => isMatch rest []
  | .many :: rest, c :: cs => isMatch rest (c :: cs) || isMatch (.many :: rest) cs
  | _ :: _, [] => false
  | item :: rest, c :: cs => accepts c item && isMatch rest cs
termination_by items cs => items.length + cs.length

/-- The text without a start that the pattern stands for. -/
def withoutStart (longest : Bool) (pattern : List PatternItem) (cs : List Char) : List Char :=
  let lengths := List.range (cs.length + 1)
  let tried := if longest then lengths.reverse else lengths
  match tried.find? fun n => isMatch pattern (cs.take n) with
  | some n => cs.drop n
  | none => cs

/-- The text without an end that the pattern stands for. -/
def withoutEnd (longest : Bool) (pattern : List PatternItem) (cs : List Char) : List Char :=
  let lengths := List.range (cs.length + 1)
  let tried := if longest then lengths else lengths.reverse
  match tried.find? fun n => isMatch pattern (cs.drop n) with
  | some n => cs.take n
  | none => cs

end Pattern

end Automation.Shell
