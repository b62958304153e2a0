import Automation.Shell.Script
import Automation.Text.Lines

/-
Reading a script character by character.

The reader keeps the rest of the text, the number of the line it is on, and at most one token that
was looked at and not yet taken.  The lines of a document that a redirection reads are taken out of
the text where the redirection stands.
-/

namespace Automation.Shell

/-- Why a script is not well written. -/
inductive ScriptError where
  | unterminatedQuote
  | unterminatedBackquote
  | unterminatedArithmetic
  | badSubstitution
  /-- A parameter whose closing brace is missing. -/
  | unterminatedParameter
  /-- What a loop goes over has no name. -/
  | badLoopVariable
  /-- A token that cannot stand where it does, and the word that should stand there. -/
  | unexpected (token : String) (expected : Option String)
deriving Repr, DecidableEq

/-- The wording of it. -/
def ScriptError.message : ScriptError → String
  | .unterminatedQuote => "Syntax error: Unterminated quoted string"
  | .unterminatedBackquote => "Syntax error: EOF in backquote substitution"
  | .unterminatedArithmetic => "Syntax error: Missing '))'"
  | .badSubstitution => "Bad substitution"
  | .unterminatedParameter => "Syntax error: Missing '\x7d'"
  | .badLoopVariable => "Syntax error: Bad for loop variable"
  | .unexpected token none => "Syntax error: " ++ token ++ " unexpected"
  | .unexpected token (some expected) =>
      "Syntax error: " ++ token ++ " unexpected (expecting \"" ++ expected ++ "\")"

/-- What a script is made of. -/
inductive Token where
  | ended
  | newline
  | sign (text : String)
  | word (w : Word)
  /-- The number of a descriptor in front of a redirection. -/
  | descriptor (n : Nat)

/-- The words that are not the names of commands where a command may start. -/
def reservedWords : List String :=
  ["if", "then", "else", "elif", "fi", "while", "until", "for", "do", "done", "case", "esac",
    "\x7b", "\x7d", "!", "in"]

/-- The signs of redirections. -/
def redirectionSigns : List String := ["<<-", "<<", ">>", ">&", "<&", ">|", "<", ">"]

/-- A token as messages name it. -/
def Token.shown : Token → String
  | .ended => "end of file"
  | .newline => "newline"
  | .sign text =>
      if redirectionSigns.contains text then "redirection" else "\"" ++ text ++ "\""
  | .descriptor _ => "redirection"
  | .word w =>
      match literal? w with
      | some s => if reservedWords.contains s then "\"" ++ s ++ "\"" else "word"
      | none => "word"

/-- Where a reader stands. -/
structure ReaderState where
  rest : List Char
  line : Nat
  ahead : Option Token
  /-- How many lines of documents were taken out behind the end of the line. -/
  takenOut : Nat

/-- A reader, which may fail on a line. -/
abbrev Reader (α : Type) := StateT ReaderState (Except (Nat × ScriptError)) α

namespace Reader

variable {α : Type}

def fail (e : ScriptError) : Reader α := fun s => .error (s.line, e)

/-- The rest of the text. -/
def rest : Reader (List Char) := fun s => .ok (s.rest, s)

def line : Reader Nat := fun s => .ok (s.line, s)

/-- The next character, which stays. -/
def peek : Reader (Option Char) := fun s => .ok (s.rest.head?, s)

/-- The line feeds among some characters. -/
def countLines (cs : List Char) : Nat := cs.count '\n'

/-- Take so many characters. -/
def take (n : Nat) : Reader (List Char) := fun s =>
  let taken := s.rest.take n
  .ok (taken, { s with rest := s.rest.drop n, line := s.line + countLines taken })

/-- Pass so many characters. -/
def pass (n : Nat) : Reader Unit := do
  let _ ← take n

/-- Take characters for as long as they are of a class. -/
def takeWhile (p : Char → Bool) : Reader (List Char) := fun s =>
  let (taken, rest) := s.rest.span p
  .ok (taken, { s with rest := rest, line := s.line + countLines taken })

/-- Whether the rest starts with some text; if so it is taken. -/
def accept (text : String) : Reader Bool := do
  if text.toList.isPrefixOf (← rest) then
    pass text.length
    pure true
  else pure false

/-- The blanks and continued lines at the start of a text, and a comment after them. -/
def skipBlanks : List Char → List Char
  | ' ' :: rest => skipBlanks rest
  | '\t' :: rest => skipBlanks rest
  | '\\' :: '\n' :: rest => skipBlanks rest
  | '#' :: rest => rest.dropWhile (· ≠ '\n')
  | cs => cs

/-- Pass what separates tokens. -/
def passBlanks : Reader Unit := do
  let cs ← rest
  pass (cs.length - (skipBlanks cs).length)

/-- The operators of a script, the longer ones first. -/
def signs : List String :=
  [";;", "&&", "||"] ++ redirectionSigns ++ [";", "&", "|", "(", ")", "\n"]

/-- A character that ends a word. -/
def endsWord (c : Char) : Bool :=
  c == ' ' || c == '\t' || c == '\n' || c == ';' || c == '&' || c == '|' || c == '<' || c == '>' ||
    c == '(' || c == ')'

/-- Pass the end of a line and the documents behind it. -/
def passLine : Reader Unit := do
  pass 1
  modify fun s => { s with line := s.line + s.takenOut, takenOut := 0 }

/-- The lines of a document up to its last line, and what follows that one, if there is one.
Tabs at the start of lines may count for nothing. -/
def documentLines (isIndented : Bool) (last : List Char) :
    List (List Char) → List (List Char) × Option (List (List Char))
  | [] => ([], none)
  | cs :: rest =>
      let cs := if isIndented then cs.dropWhile (· = '\t') else cs
      if cs = last then ([], some rest)
      else
        let (found, after) := documentLines isIndented last rest
        (cs :: found, after)

/-- Take the document behind this line out of the text. -/
def takeDocument (isIndented : Bool) (last : Octets) : Reader (List Char) := fun s =>
  let here := s.rest.takeWhile (· ≠ '\n')
  match s.rest.drop here.length with
  | [] => .ok ([], s)
  | feed :: behind =>
      let joined (ls : List (List Char)) := (ls.intersperse [feed]).flatten
      match documentLines isIndented last.toList (Text.splitAt '\n' behind) with
      | (found, some after) =>
          .ok (found.flatMap (· ++ [feed]),
            { s with
              rest := here ++ feed :: joined after, takenOut := s.takenOut + found.length + 1 })
      | (found, none) =>
          .ok (joined found,
            { s with rest := here ++ [feed], takenOut := s.takenOut + (found.length - 1) })

/-- The number of a descriptor at the start of a text, if a redirection follows it. -/
def descriptor? (cs : List Char) : Option (Nat × Nat) :=
  let ds := cs.takeWhile Char.isDigit
  match cs.drop ds.length with
  | c :: _ =>
      if !ds.isEmpty && (c == '<' || c == '>') then
        some (ds.foldl (fun n d => n * 10 + (d.toNat - '0'.toNat)) 0, ds.length)
      else none
  | [] => none

end Reader

end Automation.Shell
