import Deobfuscate.Shell.Condition
import Deobfuscate.Shell.Expansion
import Deobfuscate.Shell.Format
import Deobfuscate.Shell.Job
import Deobfuscate.Shell.Option
import Deobfuscate.Shell.Parser

/-!
# Commands of the shell

The commands that a shell carries out itself, except for those that run other
commands.
-/

namespace Deobfuscate.Shell

/-- A command of the shell: it gets its arguments and gives a status. -/
abbrev Builtin := List String → ShellAction Nat

def emit (text : String) : ShellAction Nat := do
  match ← ShellAction.lift (Process.write 1 (toBytes text)) with
  | .ok _ => return 0
  | .error _ =>
      let name := (← get).builtin.getD ""
      ShellAction.warn s!"{name}: I/O error"
      return 1

def singleQuoted (text : String) : String :=
  let parts := Text.splitOn '\'' text.toList
  let quoted (part : List Char) :=
    if part.isEmpty then "" else "'" ++ String.ofList part ++ "'"
  if text == "" then "''" else "\"'\"".intercalate (parts.map quoted)

def leaveLoops (continues : Bool) : Builtin := fun arguments => do
  let count ←
    match arguments with
    | [] => pure 1
    | text :: _ => do
        let count ← ShellAction.number text
        if count == 0 then ShellAction.fail s!"Illegal number: {text}"
        pure count
  modify fun session =>
    let count := min count session.loops
    if count == 0 then session
    else
      { session with
        skip := if continues then .continueLoop count else .breakLoops count }
  return 0

def leaveFunction : Builtin := fun arguments => do
  let status ←
    match arguments with
    | [] => pure (← get).status
    | text :: _ => ShellAction.number text
  modify fun session => { session with skip := .leave }
  return status

def exitShell : Builtin := fun arguments => do
  match arguments with
  | [] => throw .exited
  | text :: _ =>
      let status ← ShellAction.number text
      modify fun session => { session with savedStatus := some status }
      throw .exited

/-- The variables with a property, as commands that make them. -/
def variableLines (start : String) (isShown : Variable → Bool) :
    ShellAction String := do
  return String.join ((← get).bindings.toList.map fun (name, held) =>
    if !isShown held then ""
    else
      match held.value with
      | some value => s!"{start}{name}={singleQuoted value}\n"
      | none => s!"{start}{name}\n")

def setParameters : Builtin := fun arguments => do
  if arguments.isEmpty then
    emit (← variableLines "" fun held => held.value.isSome)
  else
    let scan ← scanOptions false arguments.length { operands := arguments }
    if scan.resets || !scan.operands.isEmpty then
      modify fun session =>
        { session with parameters := scan.operands, optionOffset := 0 }
      ShellAction.setVariable "OPTIND" "1"
    if scan.shown == "" then return 0 else emit scan.shown

/-- Drop the first parameters. -/
def shiftParameters : Builtin := fun arguments => do
  let count ←
    match arguments with
    | [] => pure 1
    | text :: _ => ShellAction.number text
  let session ← get
  if session.parameters.length < count then
    ShellAction.fail "can't shift that many"
  set { session with
    parameters := session.parameters.drop count
    optionOffset := 0 }
  return 0

def splitAssignment (argument : String) : String × Option String :=
  let name := argument.toList.takeWhile (· != '=')
  match argument.toList.drop name.length with
  | [] => (argument, none)
  | _ :: value => (String.ofList name, some (String.ofList value))

def checkName (name : String) : ShellAction Unit := do
  if !isName name then ShellAction.fail s!"{name}: bad variable name"

def markVariables (start : String) (has : Variable → Bool)
    (mark : Variable → Variable) : Builtin := fun arguments => do
  let (options, operands) ← readOptions "p" "" arguments
  if operands.isEmpty || !options.isEmpty then
    emit (← variableLines (start ++ " ") has)
  else
    operands.forM fun argument => do
      let (name, value) := splitAssignment argument
      match value, ← ShellAction.held? name with
      | none, some held =>
          modify fun session =>
            { session with
              bindings := session.bindings.insert name (mark held) }
      | value, _ =>
          checkName name
          ShellAction.changeVariable name fun held =>
            mark { held with value := value <|> held.value }
    return 0

/-- Take variables or functions away. -/
def unsetNames : Builtin := fun arguments => do
  let (options, operands) ← readOptions "vf" "" arguments
  let functions := options.getLast?.any fun option => option.1 == 'f'
  operands.forM fun name => do
    if functions then
      modify fun session =>
        { session with functions := session.functions.erase name }
    else
      checkName name
      ShellAction.unsetVariable name
  return 0

def declareLocal : Builtin := fun arguments => do
  if (← get).frames.isEmpty then ShellAction.fail "not in a function"
  arguments.forM fun argument => do
    let (name, value) := splitAssignment argument
    checkName name
    ShellAction.makeLocal name
    match value with
    | some value => ShellAction.setVariable name value
    | none => return ()
  return 0

/-- Read a line from the input: its cells and whether it was complete.  A
backslash takes away the meaning of a character, unless that is not wanted. -/
def readLineCells (raw : Bool) :
    Nat → Bool → List Cell → Process (List Cell × Bool)
  | 0, _, cells => return (cells.reverse, false)
  | fuel + 1, escaped, cells => do
      match ← Process.read 0 1 with
      | .ok [byte] =>
          let char := Char.ofNat byte.toNat
          if char == '\x00' then readLineCells raw fuel escaped cells
          else if escaped then
            if char == '\n' then readLineCells raw fuel false cells
            else
              let glyph : Glyph := { char, quoted := true }
              readLineCells raw fuel false (.glyph glyph :: cells)
          else if !raw && char == '\\' then readLineCells raw fuel true cells
          else if char == '\n' then return (cells.reverse, true)
          else
            let glyph : Glyph := { char, splits := true }
            readLineCells raw fuel false (.glyph glyph :: cells)
      | _ => return (cells.reverse, false)

def lineLimit : Nat := 1000000000

def readVariables : Builtin := fun arguments => do
  let (options, names) ← readOptions "r" "p" arguments
  if names.isEmpty then ShellAction.fail "arg count"
  let raw := options.any fun option => option.1 == 'r'
  let (cells, complete) ←
    ShellAction.lift (readLineCells raw lineLimit false [])
  let values := lineValues (← separators) names.length cells
  (names.zip values).forM fun (name, value) => do
    checkName name
    ShellAction.setVariable name (glyphText value)
  return if complete then 0 else 1

def optionKind (letters : List Char) (letter : Char) : Option Bool :=
  match letters.dropWhile (· != letter) with
  | _ :: ':' :: _ => some true
  | _ :: _ => some false
  | [] => none

def nextOption : Builtin := fun arguments => do
  match arguments with
  | letters :: variableName :: given => do
      let session ← get
      let given := if given.isEmpty then session.parameters else given
      let index :=
        (((← ShellAction.value? "OPTIND").bind (integer? false)).getD 1)
      let index := if index < 1 then 1 else index.toNat
      let quiet := letters.startsWith ":"
      let letters := (letters.toList.dropWhile (· == ':'))
      let finish (index offset : Nat) (found : String)
          (value : Option String) (status : Nat) : ShellAction Nat := do
        match value with
        | some value => ShellAction.setVariable "OPTARG" value
        | none => ShellAction.unsetVariable "OPTARG"
        ShellAction.setVariable "OPTIND" (toString index)
        modify fun session => { session with optionOffset := offset }
        checkName variableName
        ShellAction.setVariable variableName found
        return status
      let word := ((given[index - 1]?).getD "").toList
      let offset := if session.optionOffset == 0 then 1
        else session.optionOffset
      if word == ['-', '-'] then finish (index + 1) 0 "?" none 1
      else if word.length < 2 || word.head? != some '-' then
        finish index 0 "?" none 1
      else
        let letter := (word[offset]?).getD '?'
        let (nextIndex, nextOffset) :=
          if offset + 1 < word.length then (index, offset + 1)
          else (index + 1, 0)
        let shown := String.singleton letter
        match if letter == ':' then none else optionKind letters letter with
        | none =>
            if quiet then finish nextIndex nextOffset "?" (some shown) 0
            else
              ShellAction.print 2 s!"Illegal option -{letter}\n"
              finish nextIndex nextOffset "?" none 0
        | some false => finish nextIndex nextOffset shown none 0
        | some true =>
            let inner := word.drop (offset + 1)
            if !inner.isEmpty then
              finish (index + 1) 0 shown (some (String.ofList inner)) 0
            else
              match given[index]? with
              | some value => finish (index + 2) 0 shown (some value) 0
              | none =>
                  if quiet then finish (index + 1) 0 ":" (some shown) 0
                  else
                    ShellAction.print 2 s!"No arg for -{letter} option\n"
                    finish (index + 1) 0 "?" none 0
  | _ => ShellAction.fail "Usage: getopts optstring var [arg...]"

/-! ## Directories -/

/-- The path that steps lead to from others, given in reverse. -/
def walk : List String → List String → List String
  | steps, [] => steps.reverse
  | steps, step :: rest =>
      if step == "" || step == "." then walk steps rest
      else if step == ".." then walk (steps.drop 1) rest
      else walk (step :: steps) rest

/-- A path without detours.  Two slashes at its start stay. -/
def tidyPath (path : String) : String :=
  let start :=
    if path.startsWith "//" && !path.startsWith "///" then "//" else "/"
  start ++ "/".intercalate
    (walk [] ((Text.splitOn '/' path.toList).map String.ofList))

/-- The directories in which one that is named by its steps is searched: itself
and those below the directories of a list. -/
def directoryCandidates (list : String) (current target : String) :
    List (String × Bool) :=
  let itself :=
    (if target.startsWith "/" then target else current ++ "/" ++ target, false)
  let first := String.ofList (target.toList.takeWhile (· != '/'))
  if target.startsWith "/" || first == "." || first == ".." || list == "" then
    [itself]
  else
    ((Text.splitOn ':' list.toList).map String.ofList).map fun directory =>
      if directory == "" then itself else (directory ++ "/" ++ target, true)

def changeDirectory : Builtin := fun arguments => do
  let (_, operands) ← readOptions "LP" "" arguments
  let current := (← ShellAction.value? "PWD").getD "/"
  let (target, isShown) ←
    match operands with
    | [] => do
        pure ((← ShellAction.value? "HOME").getD "", false)
    | "-" :: _ => do
        match ← ShellAction.value? "OLDPWD" with
        | some old => pure (old, true)
        | none => ShellAction.fail "OLDPWD not set"
    | target :: _ => pure (target, false)
  let list := (← ShellAction.value? "CDPATH").getD ""
  let candidates := (directoryCandidates list current target).map
    fun (path, isShown') => (tidyPath path, isShown || isShown')
  let found ← candidates.findM? fun candidate =>
    ShellAction.lift (isDirectory candidate.1)
  match found with
  | none => ShellAction.fail s!"can't cd to {target}"
  | some (path, isShown) =>
    ShellAction.lift (Process.changeOwn fun process =>
      { process with directory := ⟨toText path⟩ })
    let keep (name value : String) : ShellAction Unit :=
      ShellAction.changeVariable name fun held =>
        { held with value := some value, exported := true }
    keep "OLDPWD" current
    keep "PWD" path
    if isShown then emit (path ++ "\n") else return 0

/-- Write the current directory. -/
def showDirectory : Builtin := fun arguments => do
  let _ ← readOptions "LP" "" arguments
  let directory ←
    ShellAction.lift (Process.own ProcessState.directory ⟨"/"⟩)
  emit (ofText directory.text ++ "\n")

def octal (digits value : Nat) : String :=
  let shown := String.ofList (Nat.toDigits 8 value)
  repeated (digits - shown.length) '0' ++ shown

def permissions (mask shift : Nat) : String :=
  let has (bit : Nat) : Bool := (mask / Nat.pow 8 shift) / bit % 2 == 0
  String.ofList ([(4, 'r'), (2, 'w'), (1, 'x')].filterMap fun (bit, letter) =>
    if has bit then some letter else none)

def changeMask : Builtin := fun arguments => do
  let (options, operands) ← readOptions "S" "" arguments
  match operands with
  | [] =>
      let mask := (← get).mask
      if options.isEmpty then emit (octal 4 mask ++ "\n")
      else
        emit (s!"u={permissions mask 2},g={permissions mask 1}," ++
          s!"o={permissions mask 0}\n")
  | text :: _ =>
      if text.toList.all isOctal then
        let mask := (readDigits 8 false text.toList).magnitude % 512
        modify fun session => { session with mask }
        return 0
      else if text.toList.head?.any Char.isDigit then
        ShellAction.fail s!"Illegal number: {text}"
      else ShellAction.fail s!"Illegal mode: {text}"

def signalLabel (signal : Nat) : String :=
  if signal == 0 then "EXIT"
  else if signal == 16 then "16"
  else
    match signalName? signal with
    | some name => name
    | none =>
        if signal == 34 then "RTMIN"
        else if signal == 64 then "RTMAX"
        else if signal < 34 then toString signal
        else if signal < 50 then s!"RTMIN+{signal - 34}"
        else s!"RTMAX-{64 - signal}"

/-- The first number that is no signal. -/
def signalBound : Nat := 65

/-- The signal that a number or name stands for; names start from a signal. -/
def signalOf? (least : Nat) (text : String) : Option Nat :=
  if text != "" && text.toList.all Char.isDigit then
    let number := (readDigits 10 false text.toList).magnitude
    if number < signalBound then some number else none
  else
    (List.range signalBound).find? fun signal =>
      least ≤ signal && signalLabel signal == text.toUpper

def changeTraps : Builtin := fun arguments => do
  let operands ← readOperands arguments
  let change (action : Option String) (signals : List String) :
      ShellAction Nat := do
    match signals.find? fun text => (signalOf? 0 text).isNone with
    | some bad =>
        (signals.takeWhile (· != bad)).forM fun text =>
          ShellAction.setTrap ((signalOf? 0 text).getD 0) action
        ShellAction.print 2 s!"trap: {bad}: bad trap\n"
        return 1
    | none =>
        signals.forM fun text =>
          ShellAction.setTrap ((signalOf? 0 text).getD 0) action
        return 0
  match operands with
  | [] =>
      let traps := (← get).traps.mergeSort fun left right => left.1 ≤ right.1
      emit (String.join (traps.map fun (signal, action) =>
        s!"trap -- {singleQuoted action} {signalLabel signal}\n"))
  | [signal] => change none [signal]
  | "-" :: signals => change none signals
  | action :: signals => change (some action) signals

def killUsage : String :=
  "Usage: kill [-s sigspec | -signum | -sigspec] [pid | job]... or\n" ++
    "kill -l [exitstatus]"

def listSignals (operands : List String) : ShellAction Nat := do
  match operands with
  | [] =>
      let names := (List.range (signalBound - 1)).map fun index =>
        signalLabel (index + 1) ++ "\n"
      emit ("0\n" ++ String.join names)
  | text :: _ =>
      let number ← ShellAction.number text
      let signal := if 128 < number then number - 128 else number
      if 0 < signal && signal < signalBound then
        emit (signalLabel signal ++ "\n")
      else ShellAction.fail s!"invalid signal number or exit status: {text}"

/-- Send a signal to a process.  Zero stands for everyone, and a negative number
for the group of a process.  Whether there was someone is given. -/
def sendSignal (signal : Nat) (target : Int) : Process Bool :=
  Process.act fun _ world =>
    let first := (world.processes.head?.map ProcessState.id).getD 0
    if target == 0 || target == -(first : Int) then
      (true, world.signalAll signal)
    else if target < 0 then (false, world)
    else
      match world.process? target.toNat with
      | some _ => (true, world.signal signal target.toNat)
      | none => (false, world)

def sendSignals (signal : Nat) (operands : List String) : ShellAction Nat := do
  if operands.isEmpty then ShellAction.fail killUsage
  operands.foldlM (fun status text => do
    let target : Int ←
      match text.toList with
      | '-' :: digits => do
          pure (-(← ShellAction.number (String.ofList digits) : Int))
      | '%' :: digits => do
          let jobs := (← get).jobs
          let index := (readDigits 10 false digits).magnitude
          match jobs[index - 1]? with
          | some job => pure (-(job.processes.headD 0 : Int))
          | none => ShellAction.fail s!"No such job: {text}"
      | _ => do pure (← ShellAction.number text : Int)
    if ← ShellAction.lift (sendSignal signal target) then return status
    else
      ShellAction.warn "No such process\n"
      return 1) 0

def kill : Builtin := fun arguments => do
  match arguments with
  | [] => ShellAction.fail killUsage
  | first :: rest =>
      match first.toList with
      | '-' :: text =>
          match signalOf? 1 (String.ofList text) with
          | some signal => sendSignals signal rest
          | none =>
              let (options, operands) ← readOptions "l" "s" arguments
              if options.any fun option => option.1 == 'l' then
                listSignals operands
              else
                match options.getLast? with
                | some (_, name) =>
                    match signalOf? 1 name with
                    | some signal => sendSignals signal operands
                    | none =>
                        ShellAction.fail
                          s!"invalid signal number or name: {name}"
                | none => sendSignals terminateSignal operands
      | _ => sendSignals terminateSignal arguments

def waitForJobs : Builtin := fun arguments => do
  match ← readOperands arguments with
  | [] => ShellAction.waitForAll
  | operands =>
      operands.foldlM (fun _ text => do
        match text.toList with
        | '%' :: digits =>
            let index := (readDigits 10 false digits).magnitude
            match (← get).jobs[index - 1]? with
            | some job => ShellAction.waitForProcess (job.processes.getLastD 0)
            | none => ShellAction.fail s!"No such job: {text}"
        | _ => ShellAction.waitForProcess (← ShellAction.number text)) 127

/-- Show the jobs.  Those that have ended are shown once. -/
def showJobs : Builtin := fun arguments => do
  let _ ← readOptions "lp" "" arguments
  ShellAction.hearOfJobs hearingTime
  let jobs := (← get).jobs
  let count := jobs.length
  let line (index : Nat) (job : Job) : String :=
    let mark :=
      if index + 1 == count then "+" else if index + 2 == count then "-"
      else " "
    let state :=
      if !job.unheard.isEmpty then "Running"
      else
        match job.processes.getLast?.bind fun id => job.ends.lookup id with
        | some (.exited 0) | none => "Done"
        | some (.exited code) => s!"Done({code})"
        | some (.killed signal) => signalText signal
    let start := s!"[{index + 1}] {mark} {state}"
    start ++ repeated (33 - start.length) ' ' ++ "\n"
  let lines := (jobs.zipIdx.map fun (job, index) => line index job).reverse
  modify fun session =>
    { session with
      jobs := session.jobs.filter fun job => !job.unheard.isEmpty }
  emit (String.join lines)

/-! ## Others -/

def printFormat : Builtin := fun arguments => do
  match ← readOperands arguments with
  | [] => ShellAction.fail "usage: printf format [arg ...]"
  | format :: values =>
      let (text, warnings, problem) := formatted format values
      warnings.forM ShellAction.warn
      match problem with
      | some problem =>
          ShellAction.andFinally (ShellAction.fail problem)
            (discard (emit text))
      | none =>
          let status ← emit text
          return if warnings.isEmpty then status else 1

/-- Give a status according to a condition in brackets.  Of the last argument
only the first character counts. -/
def bracketCondition : Builtin := fun arguments => do
  if !(arguments.getLast?.any (·.startsWith "]")) then
    ShellAction.fail "missing ]"
  conditionStatus arguments.dropLast

/-- Show or change other names of commands. -/
def changeAliases : Builtin := fun arguments => do
  let shown (name value : String) : String :=
    s!"{name}={singleQuoted value}\n"
  if arguments.isEmpty then
    emit (String.join ((← get).aliases.toList.map fun (name, value) =>
      shown name value))
  else
    arguments.foldlM (fun status argument => do
      match splitAssignment argument with
      | (name, some value) =>
          modify fun session =>
            { session with aliases := session.aliases.insert name value }
          return status
      | (name, none) =>
          match (← get).aliases.get? name with
          | some value =>
              let _ ← emit (shown name value)
              return status
          | none =>
              ShellAction.print 2 s!"alias: {name} not found\n"
              return 1) 0

/-- Take other names of commands away. -/
def removeAliases : Builtin := fun arguments => do
  let (options, operands) ← readOptions "a" "" arguments
  if !options.isEmpty then
    modify fun session => { session with aliases := .empty }
    return 0
  operands.foldlM (fun status name => do
    let held := (← get).aliases
    if held.contains name then
      modify fun session => { session with aliases := held.erase name }
      return status
    else
      ShellAction.print 2 s!"unalias: {name} not found\n"
      return 1) 0

/-- The time that processes took, of which nobody keeps count. -/
def timesText : String :=
  "0m0.000000s 0m0.000000s\n0m0.000000s 0m0.000000s\n"

def builtinNames : List String :=
  [".", ":", "[", "alias", "bg", "break", "cd", "chdir", "command", "continue",
    "echo", "eval", "exec", "exit", "export", "false", "fg", "getopts", "hash",
    "jobs", "kill", "local", "printf", "pwd", "read", "readonly", "return",
    "set", "shift", "test", "times", "trap", "true", "type", "ulimit", "umask",
    "unalias", "unset", "wait"]

/-- The commands of the shell whose errors end it. -/
def strictBuiltins : List String :=
  "local" :: specialBuiltins

/-- What a name stands for as a command. -/
inductive Meaning
  | keyword
  /-- Another text that takes its place. -/
  | otherName (value : String)
  | function
  | builtin
  | program (path : String)
  | nothing

/-- What a name stands for as a command. -/
def meaningOf (name : String) : ShellAction Meaning := do
  let session ← get
  if keywords.contains name then return .keyword
  else if let some value := session.aliases.get? name then
    return .otherName value
  else if session.functions.contains name then return .function
  else if builtinNames.contains name then return .builtin
  else
    let path := (← ShellAction.value? "PATH").getD ""
    match ← ShellAction.lift (findProgram name path) with
    | .ok (_, path) => return .program path
    | .error _ => return .nothing

/-- Tell what a name stands for as a command. -/
def describe (name : String) : ShellAction Nat := do
  match ← meaningOf name with
  | .keyword => emit s!"{name} is a shell keyword\n"
  | .otherName value => emit s!"{name} is an alias for {value}\n"
  | .function => emit s!"{name} is a shell function\n"
  | .builtin =>
      let kind := if strictBuiltins.contains name then "special " else ""
      emit s!"{name} is a {kind}shell builtin\n"
  | .program path => emit s!"{name} is {path}\n"
  | .nothing =>
      let _ ← emit s!"{name}: not found\n"
      return 127

def describeBriefly (name : String) : ShellAction Nat := do
  match ← meaningOf name with
  | .keyword | .function | .builtin => emit (name ++ "\n")
  | .otherName value => emit s!"alias {name}={singleQuoted value}\n"
  | .program path => emit (path ++ "\n")
  | .nothing => return 127

def lookForPrograms : Builtin := fun arguments => do
  let (_, operands) ← readOptions "r" "" arguments
  operands.foldlM (fun status name => do
    match ← meaningOf name with
    | .nothing =>
        ShellAction.warn s!"{name}: not found"
        return 1
    | _ => return status) 0

/-- Tell what names stand for as commands. -/
def describeAll : Builtin := fun arguments =>
  arguments.foldlM (fun status name => do
    return max status (← describe name)) 0

/-- The commands of the shell that do not run others. -/
def builtin? : String → Option Builtin
  | ":" | "true" => some fun _ => return 0
  | "false" => some fun _ => return 1
  | "[" => some bracketCondition
  | "alias" => some changeAliases
  | "bg" | "fg" => some fun _ => ShellAction.fail "No current job"
  | "break" => some (leaveLoops false)
  | "cd" | "chdir" => some changeDirectory
  | "continue" => some (leaveLoops true)
  | "echo" => some fun arguments => emit (echoText true arguments)
  | "exit" => some exitShell
  | "export" => some (markVariables "export" Variable.exported
      fun held => { held with exported := true })
  | "getopts" => some nextOption
  | "hash" => some lookForPrograms
  | "jobs" => some showJobs
  | "kill" => some kill
  | "local" => some declareLocal
  | "printf" => some printFormat
  | "pwd" => some showDirectory
  | "read" => some readVariables
  | "readonly" => some (markVariables "readonly" Variable.readOnly
      fun held => { held with readOnly := true })
  | "return" => some leaveFunction
  | "set" => some setParameters
  | "shift" => some shiftParameters
  | "test" => some conditionStatus
  | "times" => some fun _ => emit timesText
  | "trap" => some changeTraps
  | "type" => some describeAll
  | "ulimit" => some fun _ => emit "unlimited\n"
  | "umask" => some changeMask
  | "unalias" => some removeAliases
  | "unset" => some unsetNames
  | "wait" => some waitForJobs
  | _ => none

end Deobfuscate.Shell
