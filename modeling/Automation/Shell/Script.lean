import Automation.Text.Octets

/-
Shell scripts.

A word is made of pieces.  A piece remembers whether it was quoted, because what an unquoted piece
stands for is split into fields and read as a pattern.
-/

namespace Automation.Shell

/-- What a redirection does with its file. -/
inductive Direction where
  | read
  | write
  | append
  /-- The target is another descriptor. -/
  | duplicate
  /-- The target is the text that is read. -/
  | document
deriving Repr, DecidableEq

mutual

/-- A piece of a word. -/
inductive Piece where
  | text (s : Octets) (quoted : Bool)
  | parameter (name : Octets) (use : Use) (quoted : Bool)
  /-- The output of a script. -/
  | output (script : Command) (quoted : Bool)
  /-- The value of an arithmetic expression. -/
  | number (expression : List Piece) (quoted : Bool)

/-- How a parameter is used.  Where there is a flag `orEmpty`, an empty parameter counts as one
that is not set. -/
inductive Use where
  | value
  | length
  | otherwise (orEmpty : Bool) (word : List Piece)
  | assign (orEmpty : Bool) (word : List Piece)
  | instead (orEmpty : Bool) (word : List Piece)
  | demand (orEmpty : Bool) (word : List Piece)
  | withoutStart (longest : Bool) (pattern : List Piece)
  | withoutEnd (longest : Bool) (pattern : List Piece)

/-- A redirection of a descriptor. -/
inductive Redirection where
  | to (descriptor : Nat) (direction : Direction) (target : List Piece)

/-- A command. -/
inductive Command where
  | simple (line : Nat) (assignments : List (Octets × List Piece)) (words : List (List Piece))
      (redirections : List Redirection)
  | pipeline (parts : List Command)
  | negated (command : Command)
  | andThen (first second : Command)
  | orElse (first second : Command)
  | sequence (commands : List Command)
  | subshell (body : Command)
  | background (body : Command)
  | redirected (line : Nat) (body : Command) (redirections : List Redirection)
  | conditional (test yes no : Command)
  /-- Repeat the body for as long as the status of the test is zero, or is not. -/
  | loop (whileZero : Bool) (test body : Command)
  /-- Run the body for each word, or for each argument. -/
  | each (name : Octets) (words : Option (List (List Piece))) (body : Command)
  | choose (subject : List Piece) (branches : List (List (List Piece) × Command))
  | define (name : Octets) (body : Command)

end

/-- A word of a script. -/
abbrev Word := List Piece

/-- The command that does nothing. -/
def Command.nothing : Command := .sequence []

/-- The text of a word without quotes and expansions. -/
def literal? : Word → Option Octets
  | [] => some ""
  | .text s false :: rest => (literal? rest).map (s ++ ·)
  | _ :: _ => none

/-- The text of a piece that is one. -/
def Piece.literal : Piece → Octets
  | .text s _ => s
  | _ => ""

/-- Whether a piece was quoted. -/
def Piece.isQuoted : Piece → Bool
  | .text _ quoted => quoted
  | .parameter _ _ quoted => quoted
  | .output _ quoted => quoted
  | .number _ quoted => quoted

/-- A character that a name can start with. -/
def isNameStart (c : Char) : Bool := c.isAlpha || c == '_'

def isNameChar (c : Char) : Bool := c.isAlphanum || c == '_'

/-- A text that can name a variable. -/
def isName (s : Octets) : Bool :=
  match s.toList with
  | [] => false
  | c :: cs => isNameStart c && cs.all isNameChar

end Automation.Shell
