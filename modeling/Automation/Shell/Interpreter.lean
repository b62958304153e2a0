import Automation.Shell.Builtins
import Automation.Shell.Parser
import Automation.Shell.Pathnames

/-
Running scripts.

Every function is given how deep it may still go, and every turn of a loop counts; a script that
goes deeper is one that never ends.
-/

namespace Automation.Shell

open Sh

/-- The deepest that a script is run. -/
def depthLimit : Nat := 400000

/-- How many functions may call one another. -/
def callLimit : Nat := 1000

/-- The value of a parameter that is not a list. -/
def Machine.parameter? (m : Machine) (name : Octets) : Option Octets :=
  match name with
  | "#" => some (toString m.arguments.length)
  | "?" => some (toString m.status)
  | "$" => some (toString m.processId)
  | "-" => some ""
  | "!" => m.lastJob.map toString
  | "0" => some m.name
  | _ =>
      match name.toNat? with
      | some n => if n = 0 then some m.name else m.arguments[n - 1]?
      | none => Table.get? name m.values

/-- The fragments of a value. -/
def fragment (quoted : Bool) (s : Octets) : Fragment :=
  if quoted then .fixed s true else .loose s

/-- The fragments of all arguments. -/
def argumentFragments (m : Machine) (separate quoted : Bool) : List Fragment :=
  if quoted && !separate then
    let separator := match Table.get? "IFS" m.values with
      | some s => (s.toList.head?.map String.singleton).getD ""
      | none => " "
    [.fixed (separator.intercalate m.arguments) true]
  else if quoted then
    (m.arguments.map fun s => [Fragment.fixed s true]).intersperse [.nextField] |>.flatten
  else (m.arguments.map fun s => [Fragment.loose s]).intersperse [.endField] |>.flatten

/-- The text without the line feeds at its end. -/
def withoutLineFeeds (s : Octets) : Octets :=
  String.ofList (s.toList.reverse.dropWhile (· = '\n')).reverse

/-- A condition as a status. -/
def setStatus (code : Nat) : Sh Unit := modify fun m => { m with status := code }

/-- The wording of a file that cannot be opened. -/
def openProblem (creating : Bool) (e : OsError) : Octets :=
  match e with
  | .noEntry => if creating then "Directory nonexistent" else "No such file"
  | .notDirectory => if creating then "Directory nonexistent" else "No such file"
  | e => e.text

/-- Files that are not files. -/
def device? (name : Octets) : Option Nat :=
  match name with
  | "/dev/stdin" => some 0
  | "/dev/stdout" => some 1
  | "/dev/stderr" => some 2
  | _ => none

/-- The channel of a redirection, or the wording of what is wrong with it. -/
def channelOf (direction : Direction) (target : Octets) :
    Sh (Except Octets (Option Channel)) := do
  match direction, device? target with
  | .document, _ => do pure (.ok (some (.buffer (← newBuffer target))))
  | .duplicate, _ => do
      if target = "-" then pure (.ok none)
      else
        let descriptors := (← get).descriptors
        match target.toNat?.bind fun n => Table.get? n descriptors with
        | some channel => pure (.ok (some channel))
        | none => pure (.error (target ++ ": Bad file descriptor"))
  | _, some n => do pure (.ok (Table.get? n (← get).descriptors))
  | direction, none =>
      if target = "/dev/null" then pure (.ok (some .nothing))
      else do
        let p ← resolve target
        match direction with
        | .read =>
            match ← observe (·.readBytes p) with
            | .ok content => do pure (.ok (some (.buffer (← newBuffer (Octets.ofBytes content)))))
            | .error e => pure (.error ("cannot open " ++ target ++ ": " ++ openProblem false e))
        | _ =>
            let op := if direction = .append then FileOp.append p ByteArray.empty
              else FileOp.write p ByteArray.empty
            match ← perform op with
            | .ok _ => pure (.ok (some (.file p)))
            | .error e => pure (.error ("cannot create " ++ target ++ ": " ++ openProblem true e))

/-- How much of a file is looked at to find its interpreter. -/
def headerSize : Nat := 256

/-- A character between the words of a first line. -/
def isGap (c : Char) : Bool := c == ' ' || c == '\t'

/-- A character that ends a word of a first line. -/
def endsHeaderWord (c : Char) : Bool := isGap c || c == '\x00'

/-- The words in a first line, of which the second one goes on to its end. -/
def headerWords (line : List Char) : Except OsError (Octets × List Octets) :=
  let name := line.takeWhile fun c => !endsHeaderWord c
  let rest := line.drop name.length
  if name.isEmpty then .error .accessDenied
  else
    match rest with
    | c :: _ =>
        if isGap c then
          let argument := (rest.dropWhile isGap).takeWhile (· ≠ '\x00')
          .ok (String.ofList name, [String.ofList argument])
        else .ok (String.ofList name, [])
    | [] => .ok (String.ofList name, [])

/-- The interpreter that the first line of a file names, and its argument.  A line that goes on to
the end of the file is read as if zeros followed; an empty name is that of a directory. -/
def interpreter (content : Octets) : Except OsError (Octets × List Octets) :=
  match content.toList with
  | '#' :: '!' :: rest =>
      let held := rest.take (headerSize - 2)
      let padded := held ++ List.replicate (headerSize - 2 - held.length) '\x00'
      if padded.contains '\n' then
        let line := (padded.takeWhile (· ≠ '\n')).reverse.dropWhile isGap |>.reverse
        let words := line.dropWhile isGap
        if words.isEmpty then .error .badExecutable else headerWords words
      else
        let words := padded.dropWhile isGap
        if words.any endsHeaderWord then headerWords words else .error .badExecutable
  | _ => .error .badExecutable

/-- The directories of the programs that everybody has. -/
def programDirectories : List Octets := ["/bin/", "/usr/bin/"]

/-- The name of a program that everybody has, by its path. -/
def standardName? (path : Octets) : Option Octets :=
  programDirectories.findSome? fun directory =>
    if directory.toList.isPrefixOf path.toList then
      some (String.ofList (path.toList.drop directory.length))
    else none

/-- The shells, and what runs a program with other variables. -/
def isShell (name : Octets) : Bool := name == "sh" || name == "dash"

/-- The programs that a shell has itself. -/
def builtinPrograms : List Octets :=
  ["echo", "printf", "test", "[", "true", "false", "pwd", "kill", "wait", "type", "command"]

/-- Whether there is a program of that name. -/
def isProgram (name : Octets) : Bool :=
  isShell name || name == "env" || (Programs.all.lookup name).isSome

/-- The state that a shell starts in as a program. -/
def Machine.asScript (name : Octets) (arguments : List Octets) (m : Machine) : Machine :=
  { m with
    name := name
    arguments := arguments
    values := Table.keep m.exported.contains m.values
    functions := []
    traps := m.traps.filter fun entry => entry.2.isEmpty
    status := 0
    line := 1
    processId := m.processId + 1 + m.nextBuffer
    nextBuffer := m.nextBuffer + 1
    fixed := []
    options := .usual
    guarded := false
    calls := 0
    loops := 0
    hidden := []
    jobs := []
    lastJob := none }

/-- The state of a shell that knows where it is, with some options. -/
def Machine.asShell (letters : List Char) (m : Machine) : Machine :=
  { m with
    values := Table.put "PWD" (Octets.encode m.directory.text) m.values
    exported := "PWD" :: m.exported.filter (· ≠ "PWD")
    options := letters.foldr (Options.with true) m.options }

/-- The script that a shell is to run and the state it starts in, or what is wrong. -/
def shellScript (name : Octets) (arguments : List Octets) :
    Sh (Except Octets ((Machine → Machine) × Octets)) := do
  let (options, operands) := Programs.splitOptions arguments
  let start (name : Octets) (arguments : List Octets) (m : Machine) : Machine :=
    (m.asScript name arguments).asShell (options.flatMap String.toList)
  match Programs.hasOption options 'c', operands with
  | true, [] => pure (.error (name ++ ": 0: -c requires an argument"))
  | true, source :: rest => pure (.ok (start (rest.headD name) rest.tail, source))
  | false, path :: rest =>
      match ← Programs.contentOf path with
      | .ok content => pure (.ok (start path rest, content))
      | .error e =>
          pure (.error (name ++ ": 0: cannot open " ++ path ++ ": " ++ openProblem false e))
  | false, [] => do pure (.ok (start name [], ← readInput))

mutual

/-- Expand the pieces of a word. -/
def expand : Nat → Word → Sh (List Fragment)
  | 0, _ => busy
  | _ + 1, [] => pure []
  | fuel + 1, piece :: rest => do
      let first ← expandPiece fuel piece
      pure (first ++ (← expand fuel rest))

def expandPiece : Nat → Piece → Sh (List Fragment)
  | 0, _ => busy
  | _ + 1, .text s quoted => pure [.fixed s quoted]
  | fuel + 1, .parameter name use quoted => do
      let m ← get
      match name, use with
      | "@", .value => pure (argumentFragments m true quoted)
      | "*", .value => pure (argumentFragments m false quoted)
      | _, _ => expandUse fuel name (m.parameter? name) use quoted
  | fuel + 1, .output script quoted => do
      pure [fragment quoted (← substitute fuel script)]
  | fuel + 1, .number expression quoted => do
      let source := Fields.text (← expand fuel expression)
      match Arithmetic.eval (← get).values source with
      | .ok (value, values) => do
          modify fun m => { m with values := values }
          pure [fragment quoted (toString value)]
      | .error e => giveUp (e.message source)

/-- What a parameter is used for. -/
def expandUse : Nat → Octets → Option Octets → Use → Bool → Sh (List Fragment)
  | 0, _, _, _, _ => busy
  | fuel + 1, name, found, use, quoted => do
      let isSet (orEmpty : Bool) := match found with
        | some s => !(orEmpty && s.isEmpty)
        | none => false
      let value := found.getD ""
      let isNeeded := match use with
        | .value => true
        | .length => true
        | .withoutStart _ _ => true
        | .withoutEnd _ _ => true
        | _ => false
      if isNeeded && found.isNone && (← get).options.demanding then
        giveUp (name ++ ": parameter not set")
      match use with
      | .value => pure [fragment quoted value]
      | .length => pure [fragment quoted (toString value.length)]
      | .otherwise orEmpty word =>
          if isSet orEmpty then pure [fragment quoted value] else expand fuel word
      | .assign orEmpty word =>
          if isSet orEmpty then pure [fragment quoted value]
          else do
            let value := Fields.text (← expand fuel word)
            setVariable name value
            pure [fragment quoted value]
      | .instead orEmpty word =>
          if isSet orEmpty then expand fuel word else pure [.fixed "" quoted]
      | .demand orEmpty word =>
          if isSet orEmpty then pure [fragment quoted value]
          else do
            let message := Fields.text (← expand fuel word)
            giveUp (name ++ ": " ++ if message.isEmpty then "parameter not set" else message)
      | .withoutStart longest word => do
          let pattern := Pattern.parse (Fields.marked (← expand fuel word))
          let cs := Pattern.withoutStart longest pattern value.toList
          pure [fragment quoted (String.ofList cs)]
      | .withoutEnd longest word => do
          let pattern := Pattern.parse (Fields.marked (← expand fuel word))
          let cs := Pattern.withoutEnd longest pattern value.toList
          pure [fragment quoted (String.ofList cs)]

/-- The output of a script. -/
def substitute : Nat → Command → Sh Octets
  | 0, _ => busy
  | fuel + 1, script => do
      let n ← newBuffer ""
      let code ← inShell
        (fun m => { m with guarded := false })
        (withDescriptors (Table.put 1 (.buffer n)) (apart fuel script))
      modify fun m => { m with substituted := code }
      pure (withoutLineFeeds (← takeBuffer n))

/-- The fields of some words. -/
def expandFields : Nat → List Word → Sh (List Octets)
  | 0, _ => busy
  | _ + 1, [] => pure []
  | fuel + 1, word :: rest => do
      let fragments ← expand fuel word
      let fields := Fields.ofFragments (← Builtins.separators) fragments
      let directory := (← get).directory
      let found ← observe fun t => fields.flatMap (Pathnames.expand t directory)
      pure (found ++ (← expandFields fuel rest))

/-- The values of some assignments. -/
def expandAssignments : Nat → List (Octets × Word) → Sh (List (Octets × Octets))
  | 0, _ => busy
  | _ + 1, [] => pure []
  | fuel + 1, (name, word) :: rest => do
      let value := Fields.text (← expand fuel word)
      pure ((name, value) :: (← expandAssignments fuel rest))

/-- Carry out redirections one after the other, and then something else. -/
def redirecting : Nat → List Redirection → Sh Nat → Sh Nat
  | 0, _, _ => busy
  | _ + 1, [], body => body
  | fuel + 1, .to descriptor direction word :: rest, body => do
      let target := Fields.text (← expand fuel word)
      match ← channelOf direction target with
      | .error message => do
          report message
          pure 2
      | .ok channel =>
          withDescriptors
            (fun table => match channel with
              | some channel => Table.put descriptor channel table
              | none => Table.erase descriptor table)
            (redirecting fuel rest body)

/-- Run a command in a shell of its own, and what it left in the background. -/
def apart : Nat → Command → Sh Unit
  | 0, _ => busy
  | fuel + 1, command => do
      tryCatch (evaluate fuel command) fun leave => do
        setStatus (Sh.Leave.status (← get).status leave)
      let _ ← detached (finishJobs fuel)

/-- Run what is in the background to its end.  The status is that of the last command. -/
def finishJobs : Nat → Sh Nat
  | 0 => busy
  | fuel + 1 => do
      let m ← get
      match m.jobs with
      | [] => pure 0
      | job :: rest => do
          set { m with jobs := rest }
          let code ← asJob job (apart fuel job.body)
          if rest.isEmpty then pure code else finishJobs fuel

/-- Show a command before it is run, if that was asked for. -/
def trace : Nat → List (Octets × Octets) → List Octets → Sh Unit
  | 0, _, _ => busy
  | _ + 1, values, fields => do
      if (← get).options.traced then
        complain ("+ " ++ " ".intercalate (values.map (fun v => v.1 ++ "=" ++ v.2) ++ fields))

/-- Leave a strict script when the status at hand is that of a failure nobody looks at. -/
def insist : Nat → Sh Unit
  | 0 => busy
  | _ + 1 => do
      let m ← get
      if m.options.strict && !m.guarded && m.status != 0 then throw (.exit m.status)

/-- Run a command.  Its status is that of the machine afterwards. -/
def evaluate : Nat → Command → Sh Unit
  | 0, _ => busy
  | fuel + 1, .simple line assignments words redirections => do
      modify fun m => { m with line := line, substituted := 0 }
      let fields ← expandFields fuel words
      match fields with
      | [] => do
          let values ← expandAssignments fuel assignments
          trace fuel values []
          let code ← redirecting fuel redirections do pure (← get).substituted
          values.forM fun (name, value) => setVariable name value
          setStatus code
          insist fuel
      | name :: arguments => do
          let values ← expandAssignments fuel assignments
          trace fuel values fields
          if name = "exec" && arguments.isEmpty then
            redirectForGood fuel redirections
          else
            let code ← redirecting fuel redirections (invoke fuel values name arguments)
            setStatus code
          insist fuel
  | fuel + 1, .pipeline parts => do
      let code ← piped fuel parts none
      setStatus code
      insist fuel
  | fuel + 1, .negated command => do
      guarding (evaluate fuel command)
      setStatus (if (← get).status = 0 then 1 else 0)
  | fuel + 1, .andThen first second => do
      guarding (evaluate fuel first)
      if (← get).status = 0 then evaluate fuel second
  | fuel + 1, .orElse first second => do
      guarding (evaluate fuel first)
      if (← get).status ≠ 0 then evaluate fuel second
  | fuel + 1, .sequence commands => evaluateAll fuel commands
  | fuel + 1, .subshell body => do
      let code ← inSubshell (apart fuel body)
      setStatus code
      insist fuel
  | _ + 1, .background body => do
      let m ← get
      let id := m.processId + 1 + m.nextBuffer
      let job : Job :=
        ⟨id, body, m.arguments, m.values, m.directory, Table.put 0 .nothing m.descriptors⟩
      set { m with
        jobs := m.jobs ++ [job], lastJob := some id, nextBuffer := m.nextBuffer + 1, status := 0 }
  | fuel + 1, .redirected line body redirections => do
      modify fun m => { m with line := line }
      let code ← redirecting fuel redirections (do
        evaluate fuel body
        pure (← get).status)
      setStatus code
  | fuel + 1, .conditional test yes no => do
      guarding (evaluate fuel test)
      if (← get).status = 0 then evaluate fuel yes
      else do
        setStatus 0
        evaluate fuel no
  | fuel + 1, .loop whileZero test body => do
      modify fun m => { m with loops := m.loops + 1 }
      repeating fuel whileZero test body 0
      modify fun m => { m with loops := m.loops - 1 }
  | fuel + 1, .each name words body => do
      let values ← match words with
        | some words => expandFields fuel words
        | none => do pure (← get).arguments
      setStatus 0
      modify fun m => { m with loops := m.loops + 1 }
      forEach fuel name values body
      modify fun m => { m with loops := m.loops - 1 }
  | fuel + 1, .choose subject branches => do
      let s := Fields.text (← expand fuel subject)
      setStatus 0
      chooseAmong fuel s.toList branches
  | _ + 1, .define name body => do
      modify fun m => { m with functions := Table.put name body m.functions }
      setStatus 0

/-- Run commands one after the other. -/
def evaluateAll : Nat → List Command → Sh Unit
  | 0, _ => busy
  | _ + 1, [] => pure ()
  | fuel + 1, first :: rest => do
      evaluate fuel first
      evaluateAll fuel rest

/-- Redirect the descriptors of the shell itself. -/
def redirectForGood : Nat → List Redirection → Sh Unit
  | 0, _ => busy
  | _ + 1, [] => setStatus 0
  | fuel + 1, .to descriptor direction word :: rest => do
      let target := Fields.text (← expand fuel word)
      match ← channelOf direction target with
      | .error message => giveUp message
      | .ok channel => do
          modify fun m =>
            { m with
              descriptors := match channel with
                | some channel => Table.put descriptor channel m.descriptors
                | none => Table.erase descriptor m.descriptors }
          redirectForGood fuel rest

/-- Run commands that read what the ones before them write. -/
def piped : Nat → List Command → Option Nat → Sh Nat
  | 0, _, _ => busy
  | _ + 1, [], _ => pure 0
  | fuel + 1, first :: rest, source => do
      let reading (table : Table Nat Channel) := match source with
        | some n => Table.put 0 (.buffer n) table
        | none => table
      match rest with
      | [] => inSubshell (withDescriptors reading (apart fuel first))
      | _ :: _ => do
          let n ← newBuffer ""
          let _ ← inSubshell
            (withDescriptors (fun table => Table.put 1 (.buffer n) (reading table))
              (apart fuel first))
          piped fuel rest (some n)

/-- One turn of a loop.  The answer says whether the loop goes on. -/
def turn : Nat → Command → Sh Bool
  | 0, _ => busy
  | fuel + 1, body =>
      tryCatch (do
          evaluate fuel body
          pure true) fun
        | .loops 0 => pure false
        | .loops 1 => pure false
        | .loops (n + 1) => leaveLoop (.loops n)
        | .turns 0 => pure true
        | .turns 1 => pure true
        | .turns (n + 1) => leaveLoop (.turns n)
        | leave => throw leave

/-- Repeat a body for as long as a test says. -/
def repeating : Nat → Bool → Command → Command → Nat → Sh Unit
  | 0, _, _, _, _ => busy
  | fuel + 1, whileZero, test, body, last => do
      act (.pause 0 .done)
      guarding (evaluate fuel test)
      if ((← get).status == 0) == whileZero then
        if ← turn fuel body then repeating fuel whileZero test body (← get).status
      else setStatus last

/-- Leave a loop for one further out. -/
def leaveLoop : Leave → Sh Bool
  | leave => do
      modify fun m => { m with loops := m.loops - 1 }
      throw leave

/-- Run a body for each value of a variable. -/
def forEach : Nat → Octets → List Octets → Command → Sh Unit
  | 0, _, _, _ => busy
  | _ + 1, _, [], _ => pure ()
  | fuel + 1, name, value :: rest, body => do
      setVariable name value
      if ← turn fuel body then forEach fuel name rest body

/-- Run the first branch that has a pattern for a text. -/
def chooseAmong : Nat → List Char → List (List Word × Command) → Sh Unit
  | 0, _, _ => busy
  | _ + 1, _, [] => pure ()
  | fuel + 1, cs, (patterns, body) :: rest => do
      if ← matchesOne fuel cs patterns then evaluate fuel body else chooseAmong fuel cs rest

/-- Whether one of some patterns stands for a text. -/
def matchesOne : Nat → List Char → List Word → Sh Bool
  | 0, _, _ => busy
  | _ + 1, _, [] => pure false
  | fuel + 1, cs, word :: rest => do
      let pattern := Pattern.parse (Fields.marked (← expand fuel word))
      if Pattern.isMatch pattern cs then pure true else matchesOne fuel cs rest

/-- Run a command by its name. -/
def invoke : Nat → List (Octets × Octets) → Octets → List Octets → Sh Nat
  | 0, _, _, _ => busy
  | fuel + 1, values, name, arguments => do
      let m ← get
      match Builtins.special.lookup name, Table.get? name m.functions with
      | some builtin, _ => do
          values.forM fun (name, value) => setVariable name value
          builtin arguments
      | none, some body => do
          values.forM fun (name, value) => setVariable name value
          callFunction fuel body arguments
      | none, none =>
          match name with
          | "eval" => do
              values.forM fun (name, value) => setVariable name value
              evaluateSource fuel (" ".intercalate arguments)
              pure (← get).status
          | "." => source fuel arguments
          | "exec" => do
              let code ← program fuel .inPlace ("exec: " ++ arguments.headD "") values arguments
              throw (.exit code)
          | "wait" => do
              let code ← finishJobs fuel
              pure (if arguments.isEmpty then 0 else code)
          | "type" => describe arguments
          | "command" =>
              match arguments with
              | [] => pure 0
              | "-v" :: rest => locate rest
              | name :: rest => invokeProgram fuel values name rest
          | _ => invokeProgram fuel values name arguments

/-- Say what a name stands for. -/
def locate : List Octets → Sh Nat
  | name :: _ => do
      let m ← get
      if (Builtins.special.lookup name).isSome || (Builtins.regular.lookup name).isSome ||
          builtinPrograms.contains name || (Table.get? name m.functions).isSome then
        say name
        pure 0
      else if isProgram name then
        say ("/usr/bin/" ++ name)
        pure 0
      else pure 127
  | [] => pure 0

/-- Say what names stand for. -/
def describe : List Octets → Sh Nat
  | [] => pure 0
  | name :: rest => do
      let m ← get
      let (code, text) :=
        if reservedWords.contains name then (0, " is a shell keyword")
        else if (Builtins.special.lookup name).isSome then (0, " is a special shell builtin")
        else if (Table.get? name m.functions).isSome then (0, " is a shell function")
        else if (Builtins.regular.lookup name).isSome || builtinPrograms.contains name then
          (0, " is a shell builtin")
        else if isProgram name then (0, " is /usr/bin/" ++ name)
        else (127, ": not found")
      say (name ++ text)
      let code' ← describe rest
      pure (max code code')

/-- Run a command of the shell with variables of its own, or else a program. -/
def invokeProgram : Nat → List (Octets × Octets) → Octets → List Octets → Sh Nat
  | 0, _, _, _ => busy
  | fuel + 1, values, name, arguments => do
      let builtin := match Builtins.regular.lookup name with
        | some builtin => some builtin
        | none => if name = "kill" then some (kill fuel) else none
      match builtin with
      | some builtin => do
          let before := (← get).values
          values.forM fun (name, value) => setVariable name value
          let code ← builtin arguments
          values.forM fun (name, _) => restore name (Table.get? name before)
          pure code
      | none => program fuel .child name values (name :: arguments)

/-- Send a signal. -/
def kill : Nat → List Octets → Sh Nat
  | 0, _ => busy
  | fuel + 1, arguments => do
      let (signal, targets) := match arguments with
        | "-s" :: name :: rest => (Builtins.signalName? name, rest)
        | word :: rest =>
            if word.toList.head? = some '-' then
              (Builtins.signalName? (String.ofList word.toList.tail), rest)
            else (some "TERM", arguments)
        | [] => (some "TERM", [])
      match signal, targets with
      | none, _ => do
          report ("kill: bad signal")
          pure 2
      | some signal, [target] => do
          let m ← get
          if m.jobs.any fun job => toString job.id = target then
            set { m with jobs := m.jobs.filter fun job => toString job.id ≠ target }
            pure 0
          else if target ≠ toString m.processId then
            report "kill: No such process"
            pure 1
          else
            match Table.get? signal m.traps, Builtins.signals.lookup signal with
            | _, some 0 => pure 0
            | some action, _ =>
                if signal = "KILL" then act (.signalled 9)
                else do
                  evaluateSource fuel action
                  pure 0
            | none, n => act (.signalled (n.getD 15))
      | some _, _ => do
          report "kill: No such process"
          pure 1

/-- Call a function. -/
def callFunction : Nat → Command → List Octets → Sh Nat
  | 0, _, _ => busy
  | fuel + 1, body, arguments => do
      let before ← get
      if callLimit ≤ before.calls then
        giveUp ("Maximum function recursion depth (" ++ toString callLimit ++ ") reached")
      modify fun m =>
        { m with arguments := arguments, calls := m.calls + 1, loops := 0, hidden := [] }
      let code ← tryCatch (do
          evaluate fuel body
          pure (← get).status) fun
        | .fromFunction code => pure code
        | leave => throw leave
      (← get).hidden.forM fun (name, value) => restore name value
      modify fun m =>
        { m with
          arguments := before.arguments, calls := before.calls, loops := before.loops
          hidden := before.hidden }
      pure code

/-- Run a text as a script in this shell. -/
def evaluateSource : Nat → Octets → Sh Unit
  | 0, _ => busy
  | fuel + 1, source => do
      let (commands, problem) := Script.parse source
      evaluateAll fuel commands
      match problem with
      | none => pure ()
      | some (line, e) => do
          modify fun m => { m with line := line }
          giveUp e.message

/-- Run a file as a script in this shell. -/
def source : Nat → List Octets → Sh Nat
  | 0, _ => busy
  | fuel + 1, arguments => do
      match arguments with
      | [] => pure 0
      | name :: _ => do
          match ← Programs.contentOf name with
          | .ok content => do
              evaluateSource fuel content
              pure (← get).status
          | .error e => giveUp (".: cannot open " ++ name ++ ": " ++ openProblem false e)

/-- Run a program.  What is wrong is said of some label. -/
def program : Nat → Manner → Octets → List (Octets × Octets) → List Octets → Sh Nat
  | 0, _, _, _, _ => busy
  | fuel + 1, manner, label, values, words => do
      let start (m : Machine) : Machine :=
        values.foldl
          (fun m (name, value) =>
            { m with
              values := Table.put name value m.values
              exported := name :: m.exported })
          m
      match words with
      | [] => pure 0
      | name :: arguments =>
          if name.toList.contains '/' then
            match standardName? name with
            | some standard =>
                if isProgram standard then
                  asProcess manner start (standardProgram fuel standard arguments)
                else missing label
            | none => file fuel manner label start name arguments
          else if isProgram name then
            asProcess manner start (standardProgram fuel name arguments)
          else missing label

/-- Say that there is no such program. -/
def missing : Octets → Sh Nat
  | name => do
      report (name ++ ": not found")
      pure 127

/-- Run a file as a program. -/
def file : Nat → Manner → Octets → (Machine → Machine) → Octets → List Octets → Sh Nat
  | 0, _, _, _, _, _ => busy
  | fuel + 1, manner, label, start, name, arguments => do
      let p ← resolve name
      match ← observe (·.stat p) with
      | .error _ => missing label
      | .ok .directory => do
          report (label ++ ": Permission denied")
          pure 126
      | .ok (.file _ false) => do
          report (label ++ ": Permission denied")
          pure 126
      | .ok (.file content true) =>
          match interpreter (Octets.ofBytes content) with
          | .ok (interpreter, options) =>
              program fuel manner label [] (interpreter :: (options ++ name :: arguments))
          | .error .accessDenied => do
              report (label ++ ": Permission denied")
              pure 126
          | .error _ =>
              asProcess manner (fun m => ((start m).asScript name arguments).asShell [])
                (script fuel (Octets.ofBytes content))

/-- Run a program that everybody has. -/
def standardProgram : Nat → Octets → List Octets → Sh Unit
  | 0, _, _ => busy
  | fuel + 1, name, arguments => do
      if isShell name then
        let code ← shell fuel name arguments
        setStatus code
      else if name = "env" then
        let values := (arguments.takeWhile fun s => s.toList.contains '=').map fun s =>
          ((Builtins.definition s).1, ((Builtins.definition s).2).getD "")
        let words := arguments.drop values.length
        if words.isEmpty then
          let m ← get
          (Table.keep m.exported.contains m.values).forM fun (name, value) =>
            say (name ++ "=" ++ value)
          setStatus 0
        else
          let code ← program fuel .inPlace (words.headD "") values words
          setStatus code
      else
        match Programs.all.lookup name with
        | some program => do
            let code ← program arguments
            setStatus code
        | none => setStatus 127

/-- Run a shell as a program. -/
def shell : Nat → Octets → List Octets → Sh Nat
  | 0, _, _ => busy
  | fuel + 1, name, arguments => do
      match ← shellScript name arguments with
      | .ok (start, source) => asProcess .inPlace start (script fuel source)
      | .error message => do
          complain message
          pure 2

/-- Run a whole script, and then what is to be done at its exit. -/
def script : Nat → Octets → Sh Unit
  | 0, _ => busy
  | fuel + 1, source => do
      tryCatch (evaluateSource fuel source) fun leave => do
        setStatus (Sh.Leave.status (← get).status leave)
      match Table.get? "EXIT" (← get).traps with
      | none => pure ()
      | some action => do
          let code := (← get).status
          modify fun m => { m with traps := Table.erase "EXIT" m.traps }
          evaluateSource fuel action
          setStatus code
      let _ ← detached (finishJobs fuel)

end

end Automation.Shell
