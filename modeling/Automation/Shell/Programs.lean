import Automation.Shell.Machine
import Automation.Shell.Printing
import Automation.Text.Lines

/-
The usual programs that work on files and directories.

A program works on the files of the host, on its input and on its outputs, and answers with its
exit code.
-/

namespace Automation.Shell

namespace Programs

open Sh

/-- A program: what it does with its arguments, and its exit code. -/
abbrev Program := List Octets → Sh Nat

/-- A name between quotes, as messages show it. -/
def inQuotes (s : Octets) : Octets := "'" ++ s ++ "'"

/-- The options of a program, up to the first word that is none, and the other words. -/
def splitOptions : List Octets → List Octets × List Octets
  | [] => ([], [])
  | "--" :: rest => ([], rest)
  | "-" :: rest => ([], "-" :: rest)
  | word :: rest =>
      if word.toList.head? = some '-' then
        let (options, operands) := splitOptions rest
        (word :: options, operands)
      else ([], word :: rest)

/-- Whether a letter is among the options. -/
def hasOption (options : List Octets) (letter : Char) : Bool :=
  options.any fun option => option.toList.contains letter

/-- Do something for each operand; the exit code is that of the worst. -/
def forEach (operands : List Octets) (f : Octets → Sh Nat) : Sh Nat :=
  operands.foldlM (fun worst operand => do pure (max worst (← f operand))) 0

/-- What a file holds. -/
def contentOf (name : Octets) : Sh (Except OsError Octets) := do
  if name = "/dev/null" then pure (.ok "")
  else if name = "/dev/stdin" then do pure (.ok (← readInput))
  else do
    let p ← resolve name
    observe fun t => (t.readBytes p).map Octets.ofBytes

/-- What a file holds, or the input when it is called by a hyphen. -/
def inputOf (name : Octets) : Sh (Except OsError Octets) := do
  if name = "-" then do pure (.ok (← readInput)) else contentOf name

/-- The last part of a path. -/
def lastPart (name : Octets) : Octets :=
  match name.toList.reverse.dropWhile (· = '/') with
  | [] => if name.isEmpty then "" else "/"
  | cs => String.ofList (cs.takeWhile (· ≠ '/')).reverse

/-- A path without its last part. -/
def directoryPart (name : Octets) : Octets :=
  let cs := (name.toList.reverse.dropWhile (· = '/')).dropWhile (· ≠ '/')
  match cs.dropWhile (· = '/') with
  | [] => if cs.isEmpty && name.toList.head? != some '/' then "." else "/"
  | rest => String.ofList rest.reverse

/-- Do a step; when it is refused, say so. -/
def attempt (op : FileOp) (saying : Octets) : Sh Nat := do
  match ← perform op with
  | .ok _ => pure 0
  | .error e => do
      complain (saying ++ ": " ++ e.text)
      pure 1

/-- The lines of a text without their line feeds, and whether the last one had one. -/
def linesOf (content : Octets) : List (List Char) × Bool :=
  match (Text.splitAt '\n' content.toList).reverse with
  | [] :: more => (more.reverse, true)
  | ls => (ls.reverse, false)

/-- Lines as a text. -/
def ofLines (ls : List (List Char)) (closed : Bool) : Octets :=
  String.ofList ((ls.intersperse ['\n']).flatten ++ if closed && !ls.isEmpty then ['\n'] else [])

def cat : Program := fun arguments => do
  let (_, operands) := splitOptions arguments
  forEach (if operands.isEmpty then ["-"] else operands) fun name => do
    match ← inputOf name with
    | .ok content => do
        emit 1 content
        pure 0
    | .error e => do
        complain ("cat: " ++ name ++ ": " ++ e.text)
        pure 1

/-- Where a file goes when it is brought to a place. -/
def destination (source target : Octets) : Sh Octets := do
  let p ← resolve target
  if ← observe (·.isDirectory p) then
    pure (target ++ (if target.toList.getLast? = some '/' then "" else "/") ++ lastPart source)
  else pure target

/-- Put a content into a file.  A new file can be run if the one it comes from can. -/
def place (name content : Octets) (executable : Bool) : Sh Nat := do
  let q ← resolve name
  let isNew ← observe fun t => !t.exists? q
  let code ← attempt (.write q (Octets.toBytes content))
    ("cp: cannot create regular file " ++ inQuotes name)
  if code = 0 && isNew && executable then
    let _ ← perform (.setExecutable q true)
  pure code

/-- What is below a path, each with its way from there, directories before what they hold. -/
def below (p : Path) (t : FileTree) : List (List String × Node) :=
  match t.locate p with
  | .error _ => []
  | .ok l =>
      let found := t.entries.filterMap fun (other, node) =>
        if l.isPrefixOf other then some (other.drop l.length, node) else none
      found.mergeSort fun a b => a.1.length ≤ b.1.length

/-- Copy a directory and everything below it. -/
def copyTree (source target : Octets) : Sh Nat := do
  let p ← resolve source
  let q ← resolve (← destination source target)
  (← observe (below p)).foldlM
    (fun worst (names, node) => do
      let there := names.foldl Path.child q
      let op := match node with
        | .directory => FileOp.makeDirectory there
        | .file content _ => .write there content
      match ← perform op, node with
      | .ok _, .file _ executable => do
          let _ ← perform (.setExecutable there executable)
          pure worst
      | .ok _, .directory => pure worst
      | .error .exists, .directory => pure worst
      | .error e, _ => do
          complain ("cp: cannot create " ++ inQuotes (Octets.encode there.text) ++ ": " ++ e.text)
          pure 1)
    0

/-- Copy one file, or one directory if that is asked for. -/
def copy (options : List Octets) (source target : Octets) : Sh Nat := do
  let p ← resolve source
  if source = "/dev/null" then place (← destination source target) "" false
  else
    match ← observe (·.stat p) with
    | .error e => do
        complain ("cp: cannot stat " ++ inQuotes source ++ ": " ++ e.text)
        pure 1
    | .ok .directory =>
        if hasOption options 'r' || hasOption options 'R' || hasOption options 'a' then
          copyTree source target
        else do
          complain ("cp: -r not specified; omitting directory " ++ inQuotes source)
          pure 1
    | .ok (.file content executable) => do
        let name ← destination source target
        let q ← resolve name
        if ← observe fun t => t.exists? q && (t.locate p).toOption == (t.locate q).toOption then
          complain ("cp: " ++ inQuotes source ++ " and " ++ inQuotes name ++ " are the same file")
          pure 1
        else place name (Octets.ofBytes content) executable

/-- Move one file. -/
def move (_ : List Octets) (source target : Octets) : Sh Nat := do
  let p ← resolve source
  match ← observe (·.stat p) with
  | .error e => do
      complain ("mv: cannot stat " ++ inQuotes source ++ ": " ++ e.text)
      pure 1
  | .ok _ => do
      let name ← destination source target
      attempt (.rename p (← resolve name))
        ("mv: cannot move " ++ inQuotes source ++ " to " ++ inQuotes name)

/-- A program that brings files to a place. -/
def bringing (name : Octets) (bring : List Octets → Octets → Octets → Sh Nat) : Program :=
    fun arguments => do
  let (options, operands) := splitOptions arguments
  match operands.reverse with
  | target :: source :: more =>
      forEach (source :: more).reverse fun source => bring options source target
  | [only] => do
      complain (name ++ ": missing destination file operand after " ++ inQuotes only)
      complain ("Try '" ++ name ++ " --help' for more information.")
      pure 1
  | [] => do
      complain (name ++ ": missing file operand")
      complain ("Try '" ++ name ++ " --help' for more information.")
      pure 1

def rm : Program := fun arguments => do
  let (options, operands) := splitOptions arguments
  let force := hasOption options 'f'
  let deep := hasOption options 'r' || hasOption options 'R'
  forEach operands fun name => do
    let p ← resolve name
    let saying := "rm: cannot remove " ++ inQuotes name
    match ← observe (·.stat p) with
    | .error e => do
        if force then pure 0
        else do
          complain (saying ++ ": " ++ e.text)
          pure 1
    | .ok .directory =>
        if deep then attempt (.removeTree p) saying
        else do
          complain (saying ++ ": " ++ OsError.text .isDirectory)
          pure 1
    | .ok (.file ..) => attempt (.unlink p) saying

def rmdir : Program := fun arguments => do
  let (_, operands) := splitOptions arguments
  forEach operands fun name => do
    let p ← resolve name
    let saying := "rmdir: failed to remove " ++ inQuotes name
    match ← observe (·.list p) with
    | .ok [] => attempt (.removeTree p) saying
    | .ok _ => do
        complain (saying ++ ": " ++ OsError.text .notEmpty)
        pure 1
    | .error e => do
        complain (saying ++ ": " ++ e.text)
        pure 1

def mkdir : Program := fun arguments => do
  let (options, operands) := splitOptions arguments
  forEach operands fun name => do
    let p ← resolve name
    let saying := "mkdir: cannot create directory " ++ inQuotes name
    if hasOption options 'p' then
      for above in p.ancestors.reverse.dropLast do
        if above.text ≠ "" && above.parent?.isSome then
          let _ ← perform (.makeDirectory above)
      if ← observe (·.isDirectory p) then pure 0 else attempt (.makeDirectory p) saying
    else attempt (.makeDirectory p) saying

def touch : Program := fun arguments => do
  let (_, operands) := splitOptions arguments
  forEach operands fun name => do
    let p ← resolve name
    if ← observe (·.isDirectory p) then pure 0
    else attempt (.append p ByteArray.empty) ("touch: cannot touch " ++ inQuotes name)

/-- Whether a mode lets a file be run. -/
def allowsRunning (mode : Octets) : Bool :=
  match mode.toList.head? with
  | some c => if c.isDigit then mode.toList.any fun d => "1357".toList.contains d
      else mode.toList.contains '+'
  | none => false

def chmod : Program := fun arguments => do
  match arguments with
  | mode :: operands =>
      if mode.toList.contains 'r' || mode.toList.contains 'w' then pure 0
      else
        forEach operands fun name => do
          attempt (.setExecutable (← resolve name) (allowsRunning mode))
            ("chmod: cannot access " ++ inQuotes name)
  | [] => pure 1

/-- A time in thousandths of a second. -/
def millis? (s : Octets) : Option Nat :=
  let cs := s.toList
  let whole := cs.takeWhile Char.isDigit
  let (decimals, unit) := match cs.drop whole.length with
    | '.' :: rest => (rest.takeWhile Char.isDigit, rest.dropWhile Char.isDigit)
    | rest => ([], rest)
  let value (ds : List Char) := ds.foldl (fun n d => n * 10 + (d.toNat - '0'.toNat)) 0
  let scale : Option Nat := match unit with
    | [] => some 1
    | ['s'] => some 1
    | ['m'] => some 60
    | ['h'] => some 3600
    | _ => none
  if whole.isEmpty && decimals.isEmpty then none
  else scale.map fun n => n * (value whole * 1000 + value ((decimals ++ ['0', '0', '0']).take 3))

def sleep : Program := fun arguments => do
  match arguments.mapM millis? with
  | some (first :: more) => do
      act (.pause ((first :: more).foldl (· + ·) 0) .done)
      pure 0
  | some [] => do
      complain "sleep: missing operand"
      complain "Try 'sleep --help' for more information."
      pure 1
  | none => do
      complain ("sleep: invalid time interval " ++
        inQuotes ((arguments.find? fun s => (millis? s).isNone).getD ""))
      complain "Try 'sleep --help' for more information."
      pure 1

def tee : Program := fun arguments => do
  let (options, operands) := splitOptions arguments
  let content ← readInput
  emit 1 content
  forEach operands fun name => do
    let p ← resolve name
    let bytes := Octets.toBytes content
    attempt (if hasOption options 'a' then .append p bytes else .write p bytes) ("tee: " ++ name)

/-- A name without an ending. -/
def withoutEnding (name ending : Octets) : Octets :=
  if ending.toList.isSuffixOf name.toList && name != ending then
    String.ofList (name.toList.take (name.length - ending.length))
  else name

def basename : Program := fun arguments => do
  match arguments with
  | [name] => do
      say (lastPart name)
      pure 0
  | [name, ending] => do
      say (withoutEnding (lastPart name) ending)
      pure 0
  | _ => do
      complain "basename: missing operand"
      complain "Try 'basename --help' for more information."
      pure 1

def dirname : Program := fun arguments => do
  match arguments with
  | [] => do
      complain "dirname: missing operand"
      complain "Try 'dirname --help' for more information."
      pure 1
  | names => do
      names.forM fun name => say (directoryPart name)
      pure 0

def echo : Program := fun arguments => do
  emit 1 (Printing.echo arguments)
  pure 0

def printf : Program := fun arguments => do
  match arguments with
  | [] => do
      report "printf: usage: printf format [arg ...]"
      pure 2
  | source :: rest => do
    match source.toList with
    | '-' :: letter :: _ => do
      report ("printf: Illegal option -" ++ String.singleton letter)
      pure 2
    | _ => do
      let printed := Printing.format source rest
      emit 1 printed.text
      printed.complaints.forM fun complaint => report ("printf: " ++ complaint)
      pure (if printed.complaints.isEmpty then 0 else 1)

/-- The names in a directory as they are listed. -/
def listed (options : List Octets) (t : FileTree) (p : Path) : Except OsError (List Octets) :=
  (t.list p).map fun found =>
    let names := (found.map fun entry => Octets.encode entry.1).mergeSort fun a b => a ≤ b
    if hasOption options 'A' then names
    else if hasOption options 'a' then "." :: ".." :: names
    else names.filter fun name => name.toList.head? ≠ some '.'

/-- The listing of a directory, under its name when there are several. -/
def listDirectory (options : List Octets) (named : Bool) (name : Octets) : Sh Nat := do
  let p ← resolve name
  match ← observe fun t => listed options t p with
  | .ok names => do
      if named then say (name ++ ":")
      names.forM say
      pure 0
  | .error e => do
      complain ("ls: cannot open directory " ++ inQuotes name ++ ": " ++ e.text)
      pure 2

def ls : Program := fun arguments => do
  let (options, operands) := splitOptions arguments
  let operands := if operands.isEmpty then ["."] else operands
  forEach operands fun name => do
    let p ← resolve name
    match ← observe (·.stat p) with
    | .error e => do
        complain ("ls: cannot access " ++ inQuotes name ++ ": " ++ e.text)
        pure 2
    | .ok node =>
        if node = .directory && !hasOption options 'd' then
          listDirectory options (1 < operands.length) name
        else do
          say name
          pure 0

/-- The value of a setting among the words of `dd`. -/
def settingOf (key : Octets) (words : List Octets) : Option Octets :=
  words.findSome? fun word =>
    if (key ++ "=").toList.isPrefixOf word.toList then
      some (String.ofList (word.toList.drop (key.length + 1)))
    else none

/-- A number of bytes, which may be given in a larger unit. -/
def sizeOf? (s : Octets) : Option Nat :=
  let ds := s.toList.takeWhile Char.isDigit
  let scale : Option Nat := match s.toList.drop ds.length with
    | [] => some 1
    | ['k'] => some 1024
    | ['K'] => some 1024
    | ['M'] => some 1048576
    | _ => none
  scale.bind fun scale => ((String.ofList ds).toNat?).map (· * scale)

def dd : Program := fun arguments => do
  let size := ((settingOf "bs" arguments).bind sizeOf?).getD 512
  let count := (settingOf "count" arguments).bind sizeOf?
  let source := (settingOf "if" arguments).getD "-"
  let content ← if source = "/dev/zero" then
      pure (.ok (String.ofList (List.replicate (size * count.getD 0) '\x00')))
    else inputOf source
  match content with
  | .error e => do
      complain ("dd: failed to open " ++ inQuotes source ++ ": " ++ e.text)
      pure 1
  | .ok content => do
      let kept := match count with
        | some n => String.ofList (content.toList.take (size * n))
        | none => content
      match settingOf "of" arguments with
      | none => do
          emit 1 kept
          pure 0
      | some target => do
          let p ← resolve target
          attempt (.write p (Octets.toBytes kept)) ("dd: failed to open " ++ inQuotes target)

/-- The value of a sum, a comparison or the like, as `expr` reads it. -/
def valueOfWords (words : List Octets) : Option Octets :=
  match words with
  | [only] => some only
  | [a, op, b] =>
      match a.toInt?, b.toInt? with
      | some x, some y =>
          let truth (b : Bool) : Option Octets := some (if b then "1" else "0")
          match op with
          | "+" => some (toString (x + y))
          | "-" => some (toString (x - y))
          | "*" => some (toString (x * y))
          | "/" => if y = 0 then none else some (toString (x.tdiv y))
          | "%" => if y = 0 then none else some (toString (x.tmod y))
          | "=" => truth (x == y)
          | "!=" => truth (x != y)
          | "<" => truth (x < y)
          | "<=" => truth (x ≤ y)
          | ">" => truth (y < x)
          | ">=" => truth (y ≤ x)
          | _ => none
      | _, _ =>
          match op with
          | "=" => some (if a = b then "1" else "0")
          | "!=" => some (if a = b then "0" else "1")
          | _ => none
  | _ => none

/-- The value of an expression of three words, or of the length of a word. -/
def valueOfExpression (arguments : List Octets) : Option Octets :=
  match arguments with
  | ["length", word] => some (toString word.length)
  | _ => valueOfWords arguments

def expr : Program := fun arguments => do
  match valueOfExpression arguments with
  | some value => do
      say value
      pure (if value = "0" ∨ value = "" then 1 else 0)
  | none => do
      complain "expr: syntax error"
      pure 2

def pwd : Program := fun _ => do
  say (Octets.encode (← get).directory.text)
  pure 0

end Programs

end Automation.Shell
