import Automation.Shell.Arithmetic

/-
From expanded words to fields.

What came out of an unquoted expansion is split at the separators; everything else stays together.
Every character of a field keeps a note whether it was quoted.
-/

namespace Automation.Shell

/-- A part of an expanded word. -/
inductive Fragment where
  | fixed (s : Octets) (quoted : Bool)
  /-- The outcome of an unquoted expansion. -/
  | loose (s : Octets)
  /-- A new field starts here, whatever it holds. -/
  | nextField
  /-- The field ends here, if there is one. -/
  | endField
deriving Repr, DecidableEq

namespace Fields

/-- The separators of fields when nothing else is said. -/
def usualSeparators : Octets := " \t\n"

/-- Separators that count for nothing at the ends of a field. -/
def isWhite (separators : Octets) (c : Char) : Bool :=
  Arithmetic.isBlankChar c && separators.toList.contains c

/-- Fields under construction: those done, the last one first, and the one at hand. -/
structure Draft where
  finished : List (List (Char × Bool))
  current : Option (List (Char × Bool))
  /-- Whether white separators have just ended a field. -/
  afterWhite : Bool

namespace Draft

def empty : Draft := ⟨[], none, false⟩

/-- End the field at hand, if there is one. -/
def close (d : Draft) : Draft :=
  match d.current with
  | some cs => ⟨cs.reverse :: d.finished, none, d.afterWhite⟩
  | none => d

/-- Add characters to the field at hand. -/
def add (d : Draft) (cs : List (Char × Bool)) : Draft :=
  ⟨d.finished, some (cs.reverse ++ d.current.getD []), false⟩

/-- Add one character of an unquoted expansion. -/
def split (separators : Octets) (d : Draft) (c : Char) : Draft :=
  if !separators.toList.contains c then d.add [(c, false)]
  else if isWhite separators c then
    match d.current with
    | some _ => { d.close with afterWhite := true }
    | none => d
  else if d.current.isSome then { d.close with afterWhite := false }
  else if d.afterWhite then { d with afterWhite := false }
  else ⟨[] :: d.finished, none, false⟩

def addFragment (separators : Octets) (d : Draft) : Fragment → Draft
  | .fixed s quoted =>
      if s.isEmpty && !quoted then d else d.add (s.toList.map fun c => (c, quoted))
  | .loose s => s.toList.foldl (split separators) d
  | .nextField => d.close.add []
  | .endField => d.close

end Draft

/-- The fields of an expanded word. -/
def ofFragments (separators : Octets) (fragments : List Fragment) : List (List (Char × Bool)) :=
  (fragments.foldl (Draft.addFragment separators) .empty).close.finished.reverse

/-- The text of an expanded word that is not split. -/
def text (fragments : List Fragment) : Octets :=
  String.join (fragments.map fun
    | .fixed s _ => s
    | .loose s => s
    | .nextField => " "
    | .endField => " ")

/-- The characters of an expanded word, each with a note whether it was quoted. -/
def marked (fragments : List Fragment) : List (Char × Bool) :=
  fragments.flatMap fun
    | .fixed s quoted => s.toList.map fun c => (c, quoted)
    | .loose s => s.toList.map fun c => (c, false)
    | .nextField => [(' ', true)]
    | .endField => [(' ', true)]

/-- The rest of a line after one separator and the white ones around it. -/
def passSeparator (separators : Octets) (cs : List Char) : List Char :=
  match cs.dropWhile (isWhite separators) with
  | c :: rest =>
      if separators.toList.contains c then rest.dropWhile (isWhite separators) else c :: rest
  | [] => []

/-- The fields of a line for so many variables; the last one takes all that is left. -/
def ofLine (separators : Octets) : Nat → List Char → List Octets
  | 0, _ => []
  | 1, cs =>
      [String.ofList (cs.reverse.dropWhile (isWhite separators)).reverse]
  | count + 2, cs =>
      let field := cs.takeWhile fun c => !separators.toList.contains c
      String.ofList field ::
        ofLine separators (count + 1) (passSeparator separators (cs.drop field.length))

/-- A line with its backslashes taken for what they stand for. -/
def unescape : List Char → List Char
  | [] => []
  | ['\\'] => []
  | '\\' :: '\n' :: rest => unescape rest
  | '\\' :: c :: rest => c :: unescape rest
  | c :: rest => c :: unescape rest

end Fields

end Automation.Shell
