import Automation.Shell.Pattern

/-
Basic regular expressions: characters, a dot for any of them, brackets, stars, and the two ends of
a line.
-/

namespace Automation.Shell

/-- One step of an expression. -/
inductive ExpressionItem where
  /-- A character of a kind, or any number of them. -/
  | step (kind : PatternItem) (many : Bool)
  | lineStart
  | lineEnd
deriving Repr, DecidableEq

namespace Expression

/-- The kind of character at the start of an expression, and what follows it. -/
def kind? : List Char → Option (PatternItem × List Char)
  | [] => none
  | '.' :: rest => some (.any, rest)
  | '\\' :: 'n' :: rest => some (.char '\n', rest)
  | '\\' :: c :: rest => some (.char c, rest)
  | '[' :: rest =>
      let (inside, body) := match rest with
        | '^' :: more => (false, more)
        | _ => (true, rest)
      match Pattern.ranges (rest.length + 1) true (body.map fun c => (c, false)) [] with
      | some (found, after) => some (.oneOf inside found, after.map Prod.fst)
      | none => some (.char '[', rest)
  | c :: rest => some (.char c, rest)

/-- The items of an expression after its start. -/
def itemsFrom : Nat → List Char → List ExpressionItem
  | 0, _ => []
  | _ + 1, ['$'] => [.lineEnd]
  | fuel + 1, cs =>
      match kind? cs with
      | none => []
      | some (kind, '*' :: rest) => .step kind true :: itemsFrom fuel rest
      | some (kind, rest) => .step kind false :: itemsFrom fuel rest

def parse : List Char → List ExpressionItem
  | '^' :: rest => .lineStart :: itemsFrom (rest.length + 1) rest
  | cs => itemsFrom (cs.length + 1) cs

/-- The rest of a line after the longest start that an expression stands for. -/
def rest? : Nat → Bool → List ExpressionItem → List Char → Option (List Char)
  | 0, _, _, _ => none
  | _ + 1, _, [], cs => some cs
  | fuel + 1, atStart, .lineStart :: more, cs =>
      if atStart then rest? fuel true more cs else none
  | fuel + 1, _, .lineEnd :: more, cs => if cs.isEmpty then rest? fuel false more cs else none
  | _ + 1, _, .step _ false :: _, [] => none
  | fuel + 1, _, .step kind false :: more, c :: cs =>
      if Pattern.accepts c kind then rest? fuel false more cs else none
  | fuel + 1, atStart, .step _ true :: more, [] => rest? fuel atStart more []
  | fuel + 1, atStart, .step kind true :: more, c :: cs =>
      if Pattern.accepts c kind then
        match rest? fuel false (.step kind true :: more) cs with
        | some rest => some rest
        | none => rest? fuel atStart more (c :: cs)
      else rest? fuel atStart more (c :: cs)

/-- The rest of a line after a match at its start. -/
def matchHere? (items : List ExpressionItem) (atStart : Bool) (cs : List Char) :
    Option (List Char) :=
  rest? (items.length + cs.length + 1) atStart items cs

/-- Replace the first match in a line, or every one.  The replacement is made of the match. -/
def replace (items : List ExpressionItem) (every : Bool) (replacement : List Char → List Char) :
    Nat → Bool → List Char → List Char
  | 0, _, cs => cs
  | fuel + 1, atStart, cs =>
      match matchHere? items atStart cs, cs with
      | some rest, _ =>
          let found := replacement (cs.take (cs.length - rest.length))
          if !every then found ++ rest
          else if rest.length < cs.length then
            found ++ replace items every replacement fuel false rest
          else
            match cs with
            | [] => found
            | c :: more => found ++ c :: replace items every replacement fuel false more
      | none, [] => []
      | none, c :: more => c :: replace items every replacement fuel false more

/-- Whether an expression matches somewhere in a line. -/
def occurs (items : List ExpressionItem) : Bool → List Char → Bool
  | atStart, [] => (matchHere? items atStart []).isSome
  | atStart, c :: cs => (matchHere? items atStart (c :: cs)).isSome || occurs items false cs

end Expression

end Automation.Shell
