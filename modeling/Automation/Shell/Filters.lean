import Automation.Shell.Expression
import Automation.Shell.Programs

/-
The usual programs that pass texts on.
-/

namespace Automation.Shell

namespace Programs

open Sh

/-- The characters of a set, with its ranges and escapes written out. -/
def setMembers : Nat → List Char → List Char
  | 0, _ => []
  | _ + 1, [] => []
  | fuel + 1, '\\' :: rest =>
      let (found, rest) := Printing.formatEscape rest
      found ++ setMembers fuel rest
  | fuel + 1, a :: '-' :: b :: rest =>
      (List.range (b.toNat + 1 - a.toNat)).map (fun i => Char.ofNat (a.toNat + i)) ++
        setMembers fuel rest
  | fuel + 1, c :: rest => c :: setMembers fuel rest

/-- The named classes of characters as ranges. -/
def classRanges : List (String × String) :=
  [ ("[:lower:]", "a-z"), ("[:upper:]", "A-Z"), ("[:digit:]", "0-9"), ("[:alpha:]", "A-Za-z")
  , ("[:alnum:]", "0-9A-Za-z"), ("[:space:]", "\\t-\\r "), ("[:blank:]", "\\t ") ]

def membersOf (s : Octets) : List Char :=
  let s := classRanges.foldl (fun (s : String) (name, range) => s.replace name range) s
  setMembers (s.length + 1) s.toList

/-- The character that one of a set is translated to; the last one stands for all further ones. -/
def translate (old new : List Char) (c : Char) : Char :=
  match old.idxOf? c with
  | none => c
  | some i => new.getD i (new.getLastD c)

/-- The characters without those of a class that follow themselves. -/
def squeeze (isMember : Char → Bool) : List Char → List Char
  | a :: b :: rest =>
      if a = b ∧ isMember a then squeeze isMember (b :: rest)
      else a :: squeeze isMember (b :: rest)
  | cs => cs

def tr : Program := fun arguments => do
  let (options, operands) := splitOptions arguments
  let input ← readInput
  let isIn (s : Octets) : Char → Bool :=
    let members := membersOf s
    fun c => members.contains c != hasOption options 'c'
  let finish (cs : List Char) : Sh Nat := do
    emit 1 (String.ofList cs)
    pure 0
  match hasOption options 'd', hasOption options 's', operands with
  | true, _, [old] => finish (input.toList.filter fun c => !isIn old c)
  | false, true, [old] => finish (squeeze (isIn old) input.toList)
  | false, squeezed, [old, new] => do
      let cs := input.toList.map fun c =>
        if hasOption options 'c' then
          if isIn old c then (membersOf new).getLastD c else c
        else translate (membersOf old) (membersOf new) c
      finish (if squeezed then squeeze (membersOf new).contains cs else cs)
  | _, _, _ => do
      complain "tr: missing operand"
      complain "Try 'tr --help' for more information."
      pure 1

def grep : Program := fun arguments => do
  let (options, operands) := splitOptions arguments
  match operands with
  | [] => do
      complain "Usage: grep [OPTION]... PATTERNS [FILE]..."
      pure 2
  | pattern :: files => do
      let items := if hasOption options 'F' then
          pattern.toList.map fun c => .step (.char c) false
        else Expression.parse pattern.toList
      let wanted := !hasOption options 'v'
      let (found, failed) ← (if files.isEmpty then ["-"] else files).foldlM
        (fun (found, failed) name => do
          match ← inputOf name with
          | .ok content => do
              let hits := (linesOf content).1.filter fun line =>
                Expression.occurs items true line == wanted
              if hasOption options 'c' then say (toString hits.length)
              else if !hasOption options 'q' then emit 1 (ofLines hits true)
              pure (found || !hits.isEmpty, failed)
          | .error e => do
              complain ("grep: " ++ name ++ ": " ++ e.text)
              pure (found, true))
        (false, false)
      pure (if failed then 2 else if found then 0 else 1)

/-- The number that a letter gives, with it or in the next word, and the other words. -/
def numberOption (letter : Char) : List Octets → Option Octets × List Octets
  | [] => (none, [])
  | word :: rest =>
      match word.toList with
      | '-' :: c :: ds =>
          if c = letter && ds.isEmpty then (rest.head?, rest.tail)
          else if c = letter then (some (String.ofList ds), rest)
          else
            let (n, more) := numberOption letter rest
            (n, word :: more)
      | _ =>
          let (n, more) := numberOption letter rest
          (n, word :: more)

/-- A number given as an option of its own, and the other words. -/
def bareNumber : List Octets → Option Octets × List Octets
  | word :: rest =>
      match word.toList with
      | '-' :: c :: ds =>
          if c.isDigit then (some (String.ofList (c :: ds)), rest) else (none, word :: rest)
      | _ => (none, word :: rest)
  | [] => (none, [])

/-- A program that shows a part of its input, by lines or by characters. -/
def showing (name : Octets) (byLines : Nat → List (List Char) → List (List Char))
    (byChars : Nat → List Char → List Char) : Program := fun arguments => do
  let (chars, words) := numberOption 'c' arguments
  let (lines, words) := numberOption 'n' words
  let (bare, operands) := bareNumber words
  let count := ((lines.orElse fun _ => bare).bind fun s => s.toNat?).getD 10
  forEach (if operands.isEmpty then ["-"] else operands) fun file => do
    match chars.bind (fun s => s.toNat?), file with
    | some n, "/dev/zero" => do
        emit 1 (String.ofList (List.replicate n '\x00'))
        pure 0
    | chars, _ =>
        match ← inputOf file with
        | .error e => do
            complain (name ++ ": cannot open " ++ inQuotes file ++ " for reading: " ++ e.text)
            pure 1
        | .ok content => do
            match chars with
            | some n => emit 1 (String.ofList (byChars n content.toList))
            | none => do
                let (ls, closed) := linesOf content
                let shown := byLines count ls
                emit 1 (ofLines shown (closed || shown.getLast? != ls.getLast?))
            pure 0

def head : Program := showing "head" List.take List.take

def tail : Program :=
  showing "tail" (fun n ls => ls.drop (ls.length - n)) fun n cs => cs.drop (cs.length - n)

/-- The words of a text. -/
def wordCount (content : Octets) : Nat :=
  ((Text.splitAt ' ' (content.toList.map fun c => if Arithmetic.isBlankChar c then ' ' else c)).filter
    fun word => !word.isEmpty).length

def wc : Program := fun arguments => do
  let (options, operands) := splitOptions arguments
  forEach (if operands.isEmpty then ["-"] else operands) fun name => do
    match ← inputOf name with
    | .ok content => do
        let counts :=
          (if options.isEmpty || hasOption options 'l' then [content.toList.count '\n'] else []) ++
          (if options.isEmpty || hasOption options 'w' then [wordCount content] else []) ++
          (if options.isEmpty || hasOption options 'c' then [content.length] else [])
        let shown := match counts with
          | [only] => toString only
          | more => " ".intercalate (more.map fun n =>
              String.ofList (List.replicate (7 - (toString n).length) ' ') ++ toString n)
        say (if name = "-" then shown else shown ++ " " ++ name)
        pure 0
    | .error e => do
        complain ("wc: " ++ name ++ ": " ++ e.text)
        pure 1

def seq : Program := fun arguments => do
  let numbers := arguments.map fun s => (Arithmetic.ofValue? s).getD 0
  let (first, step, final) := match numbers with
    | [final] => ((1 : Int), (1 : Int), final)
    | [first, final] => (first, 1, final)
    | first :: step :: final :: _ => (first, step, final)
    | [] => (1, 1, 0)
  let count := if step = 0 then 0 else ((final - first) / step + 1).toNat
  emit 1 (String.join ((List.range count).map fun (i : Nat) =>
    toString (first + step * (i : Int)) ++ "\n"))
  pure 0

/-- How often `yes` says what it says before nobody listens any more. -/
def yesLimit : Nat := 100000

def yes : Program := fun arguments => do
  let line := (if arguments.isEmpty then "y" else " ".intercalate arguments) ++ "\n"
  emit 1 (String.join (List.replicate yesLimit line))
  pure 141

/-- A program that reads lines and writes others. -/
def ofLinesOf (name : Octets) (operands : List Octets)
    (f : List (List Char) → List (List Char)) : Sh Nat := do
  forEach (if operands.isEmpty then ["-"] else operands) fun file => do
    match ← inputOf file with
    | .ok content => do
        emit 1 (ofLines (f (linesOf content).1) true)
        pure 0
    | .error e => do
        complain (name ++ ": " ++ file ++ ": " ++ e.text)
        pure 1

/-- The number in front of a line. -/
def leadingNumber (cs : List Char) : Nat :=
  (cs.dropWhile (· = ' ')).takeWhile Char.isDigit |>.foldl
    (fun n d => n * 10 + (d.toNat - '0'.toNat)) 0

/-- Lines without those that repeat the one before. -/
def withoutRepeats : List (List Char) → List (List Char)
  | a :: b :: rest => if a = b then withoutRepeats (b :: rest) else a :: withoutRepeats (b :: rest)
  | ls => ls

def sort : Program := fun arguments => do
  let (options, operands) := splitOptions arguments
  let before (a b : List Char) : Bool :=
    if hasOption options 'n' && leadingNumber a != leadingNumber b then
      leadingNumber a < leadingNumber b
    else String.ofList a ≤ String.ofList b
  ofLinesOf "sort" operands fun ls =>
    let sorted := ls.mergeSort before
    let sorted := if hasOption options 'u' then withoutRepeats sorted else sorted
    if hasOption options 'r' then sorted.reverse else sorted

def uniq : Program := fun arguments =>
  ofLinesOf "uniq" (splitOptions arguments).2 withoutRepeats

def rev : Program := fun arguments =>
  ofLinesOf "rev" (splitOptions arguments).2 fun ls => ls.map List.reverse

def tac : Program := fun arguments =>
  ofLinesOf "tac" (splitOptions arguments).2 List.reverse

/-- The first place where two texts differ, with its line, both counted from one. -/
def firstDifference : Nat → Nat → List Char → List Char → Option (Nat × Nat)
  | place, line, a :: as, b :: bs =>
      if a = b then firstDifference (place + 1) (if a = '\n' then line + 1 else line) as bs
      else some (place, line)
  | _, _, _, _ => none

def cmp : Program := fun arguments => do
  let (options, operands) := splitOptions arguments
  let isSilent := hasOption options 's'
  match operands with
  | first :: rest => do
      let second := rest.headD "-"
      match ← inputOf first, ← inputOf second with
      | .ok a, .ok b =>
          match firstDifference 1 1 a.toList b.toList, decide (a.length = b.length) with
          | none, true => pure 0
          | some (place, line), _ => do
              if !isSilent then
                say (first ++ " " ++ second ++ " differ: byte " ++ toString place ++ ", line " ++
                  toString line)
              pure 1
          | none, false => do
              if !isSilent then
                complain ("cmp: EOF on " ++ if a.length < b.length then first else second)
              pure 1
      | .error e, _ => do
          if !isSilent then complain ("cmp: " ++ first ++ ": " ++ e.text)
          pure 2
      | _, .error e => do
          if !isSilent then complain ("cmp: " ++ second ++ ": " ++ e.text)
          pure 2
  | [] => do
      complain "cmp: missing operand after 'cmp'"
      pure 2

/-- The places that a list of `cut` names, counted from one. -/
def placesOf (spec : Octets) (count : Nat) : List Nat :=
  let chosen (n : Nat) : Bool := (Text.splitAt ',' spec.toList).any fun part =>
    let bounds := (Text.splitAt '-' part).map fun ds => (String.ofList ds).toNat?
    match bounds with
    | [only] => only == some n
    | [low, high] => low.getD 1 ≤ n && n ≤ high.getD count
    | _ => false
  ((List.range count).map (· + 1)).filter chosen

def cut : Program := fun arguments => do
  let (chars, words) := numberOption 'c' arguments
  let (fields, words) := numberOption 'f' words
  let (delimiter, operands) := numberOption 'd' words
  let separator := ((delimiter.getD "\t").toList.head?).getD '\t'
  ofLinesOf "cut" operands fun ls => ls.map fun cs =>
    match chars, fields with
    | some spec, _ => (placesOf spec cs.length).filterMap fun n => cs[n - 1]?
    | none, some spec =>
        if !cs.contains separator then cs
        else
          let parts := Text.splitAt separator cs
          let found := (placesOf spec parts.length).filterMap fun n => parts[n - 1]?
          (found.intersperse [separator]).flatten
    | none, none => cs

end Programs

end Automation.Shell
