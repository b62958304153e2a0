import Automation.Shell.Reader

/-
Reading scripts.

Words are read piece by piece, because a word may hold a whole script.  Every function is given
how deep it may still go; the length of the text bounds that.
-/

namespace Automation.Shell

namespace Reader

/-- The first character of a double quote's text that is not taken as it is. -/
def isPlainInQuotes (c : Char) : Bool := c != '\"' && c != '\\' && c != '$' && c != '\x60'

/-- A character of a word that is taken as it is. -/
def isPlain (c : Char) : Bool := isPlainInQuotes c && c != '\''

/-- The text up to the closing quote of a single quote. -/
def singleQuoted : Reader Piece := do
  let cs ← takeWhile (· ≠ '\'')
  if ← accept "'" then pure (.text (String.ofList cs) true) else fail .unterminatedQuote

/-- The characters that a backslash quotes between double quotes. -/
def isQuotable (c : Char) : Bool := c == '$' || c == '\x60' || c == '\"' || c == '\\'

/-- What a backslash stands for where it quotes some characters only. -/
def escapeBefore (quotable : Char → Bool) : Reader (List Piece) := do
  pass 1
  match ← peek with
  | some '\n' =>
      pass 1
      pure []
  | some c =>
      if quotable c then
        pass 1
        pure [.text (String.singleton c) true]
      else pure [.text "\\" true]
  | none => pure [.text "\\" true]

/-- What a backslash between double quotes stands for. -/
def escapeInQuotes : Reader (List Piece) := escapeBefore isQuotable

/-- What a backslash in a document stands for. -/
def escapeInDocument : Reader (List Piece) := escapeBefore fun c => isQuotable c && c != '\"'

/-- A character of a document that is taken as it is. -/
def isPlainInDocument (c : Char) : Bool := c == '\"' || isPlainInQuotes c

/-- What a backslash outside of quotes stands for. -/
def escape : Reader (List Piece) := do
  pass 1
  match ← take 1 with
  | ['\n'] => pure []
  | [c] => pure [.text (String.singleton c) true]
  | _ => pure [.text "\\" true]

/-- The script between two backquotes: there a backslash quotes itself, a dollar and a backquote. -/
def backquoted : List Char → List Char → Option (List Char × List Char)
  | _, [] => none
  | found, '\x60' :: rest => some (found.reverse, rest)
  | found, '\\' :: c :: rest =>
      if c == '$' || c == '\x60' || c == '\\' then backquoted (c :: found) rest
      else backquoted (c :: '\\' :: found) rest
  | found, c :: rest => backquoted (c :: found) rest

/-- A name or a number, or a special parameter. -/
def parameterName : Reader Octets := do
  match ← peek with
  | none => pure ""
  | some c =>
      if isNameStart c then do pure (String.ofList (← takeWhile isNameChar))
      else if c.isDigit then do pure (String.ofList (← takeWhile Char.isDigit))
      else if "@*#?-$!".toList.contains c then do pure (String.ofList (← take 1))
      else pure ""

/-- The name of an assignment and what is assigned. -/
def assignment? : Word → Option (Octets × Word)
  | .text s false :: rest =>
      let name := String.ofList (s.toList.takeWhile (· ≠ '='))
      if isName name && s.toList.contains '=' then
        some (name, .text (String.ofList (s.toList.drop (name.length + 1))) false :: rest)
      else none
  | _ => none

/-- The redirection that a sign stands for, with the descriptor that it concerns. -/
def direction? : String → Option (Nat × Direction)
  | "<" => some (0, .read)
  | "<<" => some (0, .document)
  | "<<-" => some (0, .document)
  | ">" => some (1, .write)
  | ">|" => some (1, .write)
  | ">>" => some (1, .append)
  | "<&" => some (0, .duplicate)
  | ">&" => some (1, .duplicate)
  | _ => none

/-- The reserved words that end a list of commands. -/
def closers : List String := ["then", "else", "elif", "fi", "do", "done", "esac", "\x7d"]

/-- Whether a token can start a command. -/
def startsCommand : Token → Bool
  | .ended => false
  | .newline => false
  | .descriptor _ => true
  | .sign text => text == "(" || (direction? text).isSome
  | .word w =>
      match literal? w with
      | some s => !closers.contains s
      | none => true

/-- The text of a token that is a word without quotes. -/
def Token.literal? : Token → Option String
  | .word w => Shell.literal? w
  | _ => none

mutual

/-- The pieces of a word up to a character that ends it. -/
def pieces : Nat → (Char → Bool) → Reader (List Piece)
  | 0, _ => fail .unterminatedQuote
  | fuel + 1, stop => do
      match ← peek with
      | none => pure []
      | some c =>
          if stop c then pure []
          else
            let first ← match c with
              | '\\' => escape
              | '\'' => do
                  pass 1
                  pure [← singleQuoted]
              | '\"' => do
                  pass 1
                  let inner ← quoted fuel '\"'
                  pure (if inner.isEmpty then [.text "" true] else inner)
              | '$' => do
                  pass 1
                  dollar fuel false
              | '\x60' => do
                  pass 1
                  backquote fuel false
              | _ => do
                  let cs ← takeWhile fun c => isPlain c && !stop c
                  pure [.text (String.ofList cs) false]
            pure (first ++ (← pieces fuel stop))

/-- The pieces between double quotes, up to the closing character. -/
def quoted : Nat → Char → Reader (List Piece)
  | 0, _ => fail .unterminatedQuote
  | fuel + 1, close => do
      match ← peek with
      | none => fail .unterminatedQuote
      | some c =>
          if c = close then
            pass 1
            pure []
          else
            let first ← match c with
              | '\\' => escapeInQuotes
              | '$' => do
                  pass 1
                  dollar fuel true
              | '\x60' => do
                  pass 1
                  backquote fuel true
              | '\"' => do
                  pass 1
                  pure []
              | _ => do
                  let cs ← takeWhile fun c => isPlainInQuotes c && c != close
                  pure [.text (String.ofList cs) true]
            pure (first ++ (← quoted fuel close))

/-- What follows a dollar. -/
def dollar : Nat → Bool → Reader (List Piece)
  | 0, _ => fail .unterminatedQuote
  | fuel + 1, isQuoted => do
      if ← accept "((" then pure [.number (← arithmetic fuel 0) isQuoted]
      else if ← accept "(" then
        let body ← list fuel
        expectSign ")"
        pure [.output body isQuoted]
      else if ← accept "\x7b" then pure [← braces fuel isQuoted]
      else
        match ← peek with
        | some c =>
            if c.isDigit then
              let name ← take 1
              pure [.parameter (String.ofList name) .value isQuoted]
            else
              let name ← parameterName
              pure (if name.isEmpty then [.text "$" isQuoted]
                else [.parameter name .value isQuoted])
        | none => pure [.text "$" isQuoted]

/-- A script between backquotes. -/
def backquote : Nat → Bool → Reader (List Piece)
  | 0, _ => fail .unterminatedBackquote
  | fuel + 1, isQuoted => do
      match backquoted [] (← rest) with
      | none => fail .unterminatedBackquote
      | some (inner, after) =>
          let body ← fun s =>
            match (list fuel).run ⟨inner, s.line, none, 0⟩ with
            | .ok (body, _) => .ok (body, s)
            | .error e => .error e
          pass ((← rest).length - after.length)
          pure [.output body isQuoted]

/-- An arithmetic expression up to its two closing parentheses. -/
def arithmetic : Nat → Nat → Reader (List Piece)
  | 0, _ => fail .unterminatedArithmetic
  | fuel + 1, depth => do
      match ← peek with
      | none => fail .unterminatedArithmetic
      | some ')' =>
          if depth = 0 then
            if ← accept "))" then pure [] else fail .unterminatedArithmetic
          else
            pass 1
            pure (.text ")" true :: (← arithmetic fuel (depth - 1)))
      | some '(' =>
          pass 1
          pure (.text "(" true :: (← arithmetic fuel (depth + 1)))
      | some '$' =>
          pass 1
          let first ← dollar fuel true
          pure (first ++ (← arithmetic fuel depth))
      | some '\x60' =>
          pass 1
          let first ← backquote fuel true
          pure (first ++ (← arithmetic fuel depth))
      | some _ =>
          let c ← take 1
          pure (.text (String.ofList c) true :: (← arithmetic fuel depth))

/-- A parameter in braces. -/
def braces : Nat → Bool → Reader Piece
  | 0, _ => fail .badSubstitution
  | fuel + 1, isQuoted => do
      if ← accept "#\x7d" then pure (.parameter "#" .value isQuoted)
      else if ← accept "#" then
        let name ← parameterName
        if name.isEmpty then fail .badSubstitution
        else if ← accept "\x7d" then pure (.parameter name .length isQuoted)
        else fail .badSubstitution
      else
        let name ← parameterName
        if name.isEmpty then fail .badSubstitution
        else pure (.parameter name (← use fuel isQuoted) isQuoted)

/-- How a parameter in braces is used. -/
def use : Nat → Bool → Reader Use
  | 0, _ => fail .badSubstitution
  | fuel + 1, isQuoted => do
      if ← accept "\x7d" then pure .value
      else if ← accept "##" then pure (.withoutStart true (← operand fuel false))
      else if ← accept "#" then pure (.withoutStart false (← operand fuel false))
      else if ← accept "%%" then pure (.withoutEnd true (← operand fuel false))
      else if ← accept "%" then pure (.withoutEnd false (← operand fuel false))
      else
        let orEmpty ← accept ":"
        if ← accept "-" then pure (.otherwise orEmpty (← operand fuel isQuoted))
        else if ← accept "=" then pure (.assign orEmpty (← operand fuel isQuoted))
        else if ← accept "+" then pure (.instead orEmpty (← operand fuel isQuoted))
        else if ← accept "?" then pure (.demand orEmpty (← operand fuel isQuoted))
        else if (← peek).isNone then
          fail (if isQuoted then .unterminatedQuote else .unterminatedParameter)
        else fail .badSubstitution

/-- The word before a closing brace. -/
def operand : Nat → Bool → Reader Word
  | 0, _ => fail .badSubstitution
  | fuel + 1, isQuoted => do
      if isQuoted then quoted fuel '\x7d'
      else
        let w ← pieces fuel (· == '\x7d')
        if ← accept "\x7d" then pure w else fail .unterminatedParameter

/-- The next token, which stays. -/
def lookAhead : Nat → Reader Token
  | 0 => pure .ended
  | fuel + 1 => do
      match (← get).ahead with
      | some token => pure token
      | none =>
          passBlanks
          let cs ← rest
          let token ← match cs.isEmpty, descriptor? cs,
              signs.find? fun sign => sign.toList.isPrefixOf cs with
            | true, _, _ => pure .ended
            | _, some (n, width), _ => do
                pass width
                pure (.descriptor n)
            | _, none, some "\n" => do
                passLine
                pure .newline
            | _, none, some sign => do
                pass sign.length
                pure (.sign sign)
            | _, none, none => do pure (.word (← pieces fuel endsWord))
          modify fun s => { s with ahead := some token }
          pure token

/-- Take a sign that has to come next. -/
def expectSign : String → Reader Unit
  | sign => do
      match (← get).ahead with
      | some (.sign found) =>
          if found = sign then modify fun s => { s with ahead := none }
          else fail (.unexpected (Token.shown (.sign found)) (some sign))
      | some token => fail (.unexpected token.shown (some sign))
      | none => fail (.unexpected "end of file" (some sign))

/-- Take a reserved word that has to come next. -/
def expectWord : Nat → String → Reader Unit
  | 0, _ => pure ()
  | fuel + 1, expected => do
      let token ← lookAhead fuel
      if Token.literal? token = some expected then modify fun s => { s with ahead := none }
      else fail (.unexpected token.shown (some expected))

/-- Pass empty lines. -/
def passLines : Nat → Reader Unit
  | 0 => pure ()
  | fuel + 1 => do
      match ← lookAhead fuel with
      | .newline =>
          modify fun s => { s with ahead := none }
          passLines fuel
      | _ => pure ()

/-- Commands up to a token that cannot start one. -/
def list : Nat → Reader Command
  | 0 => fail .unterminatedQuote
  | fuel + 1 => do pure (.sequence (← commands fuel true))

/-- Commands one after the other, over several lines or on one. -/
def commands : Nat → Bool → Reader (List Command)
  | 0, _ => fail .unterminatedQuote
  | fuel + 1, overLines => do
      if overLines then passLines fuel
      if startsCommand (← lookAhead fuel) then
        let first ← andOr fuel
        match ← lookAhead fuel with
        | .sign ";" =>
            modify fun s => { s with ahead := none }
            pure (first :: (← commands fuel overLines))
        | .sign "&" =>
            modify fun s => { s with ahead := none }
            pure (.background first :: (← commands fuel overLines))
        | .newline =>
            if overLines then pure (first :: (← commands fuel overLines)) else pure [first]
        | _ => pure [first]
      else pure []

/-- A list that is not empty. -/
def body : Nat → Reader Command
  | 0 => fail .unterminatedQuote
  | fuel + 1 => do
      match ← commands fuel true, ← lookAhead fuel with
      | [], .ended => pure .nothing
      | [], token => fail (.unexpected token.shown none)
      | found, _ => pure (.sequence found)

/-- Pipelines joined by `&&` and `||`. -/
def andOr : Nat → Reader Command
  | 0 => fail .unterminatedQuote
  | fuel + 1 => do andOrMore fuel (← pipeline fuel)

/-- What is joined to the pipelines so far. -/
def andOrMore : Nat → Command → Reader Command
  | 0, first => pure first
  | fuel + 1, first => do
      match ← lookAhead fuel with
      | .sign "&&" =>
          modify fun s => { s with ahead := none }
          passLines fuel
          andOrMore fuel (.andThen first (← pipeline fuel))
      | .sign "||" =>
          modify fun s => { s with ahead := none }
          passLines fuel
          andOrMore fuel (.orElse first (← pipeline fuel))
      | _ => pure first

/-- Commands joined by `|`, possibly negated. -/
def pipeline : Nat → Reader Command
  | 0 => fail .unterminatedQuote
  | fuel + 1 => do
      if Token.literal? (← lookAhead fuel) = some "!" then
        modify fun s => { s with ahead := none }
        pure (.negated (← pipeline fuel))
      else
        match ← piped fuel with
        | [only] => pure only
        | parts => pure (.pipeline parts)

/-- The commands of a pipeline. -/
def piped : Nat → Reader (List Command)
  | 0 => fail .unterminatedQuote
  | fuel + 1 => do
      let first ← command fuel
      match ← lookAhead fuel with
      | .sign "|" =>
          modify fun s => { s with ahead := none }
          passLines fuel
          pure (first :: (← piped fuel))
      | _ => pure [first]

/-- One command. -/
def command : Nat → Reader Command
  | 0 => fail .unterminatedQuote
  | fuel + 1 => do
      let token ← lookAhead fuel
      let start ← line
      let closing (c : Command) : Reader Command := do
        match ← redirections fuel with
        | [] => pure c
        | rs => pure (.redirected start c rs)
      let taking (f : Reader Command) : Reader Command := do
        modify fun s => { s with ahead := none }
        closing (← f)
      match token with
      | .sign "(" => taking do
          let inner ← body fuel
          let _ ← lookAhead fuel
          expectSign ")"
          pure (.subshell inner)
      | .word w =>
          match literal? w with
          | some "\x7b" => taking do
              let inner ← body fuel
              expectWord fuel "\x7d"
              pure inner
          | some "if" => taking (conditional fuel)
          | some "while" => taking (loop fuel true)
          | some "until" => taking (loop fuel false)
          | some "for" => taking (each fuel)
          | some "case" => taking (choose fuel)
          | _ => simpleOrDefinition fuel start
      | _ =>
          if startsCommand token then simple fuel start [] [] []
          else fail (.unexpected token.shown none)

/-- The rest of a conditional after its first word. -/
def conditional : Nat → Reader Command
  | 0 => fail .unterminatedQuote
  | fuel + 1 => do
      let test ← body fuel
      expectWord fuel "then"
      let yes ← body fuel
      match Token.literal? (← lookAhead fuel) with
      | some "elif" =>
          modify fun s => { s with ahead := none }
          pure (.conditional test yes (← conditional fuel))
      | some "else" =>
          modify fun s => { s with ahead := none }
          let no ← body fuel
          expectWord fuel "fi"
          pure (.conditional test yes no)
      | _ =>
          expectWord fuel "fi"
          pure (.conditional test yes .nothing)

/-- The rest of a loop after its first word. -/
def loop : Nat → Bool → Reader Command
  | 0, _ => fail .unterminatedQuote
  | fuel + 1, whileZero => do
      let test ← body fuel
      expectWord fuel "do"
      let inner ← body fuel
      expectWord fuel "done"
      pure (.loop whileZero test inner)

/-- The rest of a loop over words after its first word. -/
def each : Nat → Reader Command
  | 0 => fail .unterminatedQuote
  | fuel + 1 => do
      match (Token.literal? (← lookAhead fuel)).filter isName with
      | none => fail .badLoopVariable
      | some name =>
          modify fun s => { s with ahead := none }
          passLines fuel
          let words ← match Token.literal? (← lookAhead fuel) with
            | some "in" => do
                modify fun s => { s with ahead := none }
                pure (some (← words fuel))
            | _ => pure none
          match ← lookAhead fuel with
          | .sign ";" => modify fun s => { s with ahead := none }
          | _ => pure ()
          passLines fuel
          expectWord fuel "do"
          let inner ← body fuel
          expectWord fuel "done"
          pure (.each name words inner)

/-- Words up to the end of a line or a sign. -/
def words : Nat → Reader (List Word)
  | 0 => fail .unterminatedQuote
  | fuel + 1 => do
      match ← lookAhead fuel with
      | .word w =>
          modify fun s => { s with ahead := none }
          pure (w :: (← words fuel))
      | _ => pure []

/-- The rest of a choice after its first word. -/
def choose : Nat → Reader Command
  | 0 => fail .unterminatedQuote
  | fuel + 1 => do
      match ← lookAhead fuel with
      | .word subject =>
          modify fun s => { s with ahead := none }
          passLines fuel
          expectWord fuel "in"
          pure (.choose subject (← branches fuel))
      | token => fail (.unexpected token.shown none)

/-- The branches of a choice. -/
def branches : Nat → Reader (List (List Word × Command))
  | 0 => fail .unterminatedQuote
  | fuel + 1 => do
      passLines fuel
      let token ← lookAhead fuel
      if Token.literal? token = some "esac" then
        modify fun s => { s with ahead := none }
        pure []
      else
        match token with
        | .sign "(" => modify fun s => { s with ahead := none }
        | _ => pure ()
        let patterns ← patterns fuel
        let inner ← list fuel
        match ← lookAhead fuel with
        | .sign ";;" =>
            modify fun s => { s with ahead := none }
            pure ((patterns, inner) :: (← branches fuel))
        | _ =>
            expectWord fuel "esac"
            pure [(patterns, inner)]

/-- The patterns of a branch. -/
def patterns : Nat → Reader (List Word)
  | 0 => fail .unterminatedQuote
  | fuel + 1 => do
      match ← lookAhead fuel with
      | .word w =>
          modify fun s => { s with ahead := none }
          match ← lookAhead fuel with
          | .sign "|" =>
              modify fun s => { s with ahead := none }
              pure (w :: (← patterns fuel))
          | _ =>
              expectSign ")"
              pure [w]
      | .ended => fail (.unexpected Token.ended.shown (some ")"))
      | token => fail (.unexpected token.shown none)

/-- Redirections in a row. -/
def redirections : Nat → Reader (List Redirection)
  | 0 => fail .unterminatedQuote
  | fuel + 1 => do
      match ← redirection fuel with
      | some r => pure (r :: (← redirections fuel))
      | none => pure []

/-- A redirection, if there is one. -/
def redirection : Nat → Reader (Option Redirection)
  | 0 => fail .unterminatedQuote
  | fuel + 1 => do
      let numbered ← match ← lookAhead fuel with
        | .descriptor n => do
            modify fun s => { s with ahead := none }
            pure (some n)
        | _ => pure none
      match ← lookAhead fuel with
      | .sign text =>
          match direction? text with
          | none => pure none
          | some (usual, direction) =>
              modify fun s => { s with ahead := none }
              match ← lookAhead fuel with
              | .word target =>
                  modify fun s => { s with ahead := none }
                  let target ← match direction with
                    | .document => document fuel (text = "<<-") target
                    | _ => pure target
                  pure (some (.to (numbered.getD usual) direction target))
              | token => fail (.unexpected token.shown none)
      | _ => pure none

/-- The document that ends at a line like a word.  What it holds is expanded unless a part of the
word is quoted. -/
def document : Nat → Bool → Word → Reader Word
  | 0, _, _ => fail .unterminatedQuote
  | fuel + 1, isIndented, word => do
      let start ← line
      let cs ← takeDocument isIndented (String.join (word.map Piece.literal))
      if word.any Piece.isQuoted then pure [.text (String.ofList cs) true]
      else fun s =>
        match (documentPieces fuel).run ⟨cs, start, none, 0⟩ with
        | .ok (found, _) => .ok (found, s)
        | .error e => .error e

/-- The pieces of a document. -/
def documentPieces : Nat → Reader (List Piece)
  | 0 => fail .unterminatedQuote
  | fuel + 1 => do
      let first ← match ← peek with
        | none => pure []
        | some '\\' => escapeInDocument
        | some '$' => do
            pass 1
            dollar fuel true
        | some '\x60' => do
            pass 1
            backquote fuel true
        | some _ => do
            let cs ← takeWhile isPlainInDocument
            pure [.text (String.ofList cs) true]
      if (← peek).isNone then pure first else pure (first ++ (← documentPieces fuel))

/-- A command without reserved words, or the definition of a function. -/
def simpleOrDefinition : Nat → Nat → Reader Command
  | 0, _ => fail .unterminatedQuote
  | fuel + 1, start => do
      match ← lookAhead fuel with
      | .word w =>
          modify fun s => { s with ahead := none }
          match literal? w, ← lookAhead fuel with
          | some name, .sign "(" =>
              if !isName name then fail (.unexpected (Token.sign "(").shown none)
              modify fun s => { s with ahead := none }
              let _ ← lookAhead fuel
              expectSign ")"
              passLines fuel
              pure (.define name (← command fuel))
          | _, _ =>
              match assignment? w with
              | some a => simple fuel start [a] [] []
              | none => simple fuel start [] [w] []
      | token => fail (.unexpected token.shown none)

/-- The rest of a command, after some assignments, words and redirections. -/
def simple : Nat → Nat → List (Octets × Word) → List Word → List Redirection → Reader Command
  | 0, _, _, _, _ => fail .unterminatedQuote
  | fuel + 1, start, assignments, words, rs => do
      match ← redirection fuel with
      | some r => simple fuel start assignments words (rs ++ [r])
      | none =>
          match ← lookAhead fuel with
          | .word w =>
              modify fun s => { s with ahead := none }
              match words.isEmpty, assignment? w with
              | true, some a => simple fuel start (assignments ++ [a]) words rs
              | _, _ => simple fuel start assignments (words ++ [w]) rs
          | .sign "(" => fail (.unexpected (Token.sign "(").shown none)
          | _ => pure (.simple start assignments words rs)

end

end Reader

/-- Read the commands of one line after the other; the commands of a line are kept when the whole
line is well written.  The answer also has the first error. -/
def Script.lines : Nat → ReaderState → List Command → List Command × Option (Nat × ScriptError)
  | 0, _, found => (found.reverse, none)
  | fuel + 1, s, found =>
      let step : Reader (Option (List Command)) := do
        Reader.passLines fuel
        match ← Reader.lookAhead fuel with
        | .ended => pure none
        | _ =>
            let line ← Reader.commands fuel false
            match ← Reader.lookAhead fuel with
            | .ended => pure (some line)
            | .newline => pure (some line)
            | token => Reader.fail (.unexpected token.shown none)
      match step.run s with
      | .error e => (found.reverse, some e)
      | .ok (none, _) => (found.reverse, none)
      | .ok (some line, s) => Script.lines fuel s (line.reverse ++ found)

/-- Read a script: the commands up to the first line that is not well written, and what is wrong
with that one. -/
def Script.parse (source : Octets) : List Command × Option (Nat × ScriptError) :=
  let cs := source.toList
  Script.lines (8 * cs.length + 64) ⟨cs, 1, none, 0⟩ []

end Automation.Shell
