import Deobfuscate.Dict
import Deobfuscate.Shell.Integer
import Deobfuscate.Shell.Reader
import Deobfuscate.Shell.Task

/-!
# What a shell remembers

A shell has parameters, variables, functions, options, traps and jobs.  An error
makes it end, unless it happens in a command that can stand it.
-/

namespace Deobfuscate.Shell

/-- A variable.  One without a value can still be exported or protected. -/
structure Variable where
  value : Option String
  exported : Bool := false
  readOnly : Bool := false
  deriving DecidableEq, Repr, Inhabited

/-- What is left out until the end of loops or of a function. -/
inductive Skip
  | nothing
  /-- The rest of so many loops. -/
  | breakLoops (count : Nat)
  /-- The rest of so many loops, but the last of them goes on. -/
  | continueLoop (count : Nat)
  /-- The rest of a function or of a text of commands. -/
  | leave
  deriving DecidableEq, Repr

/-- Processes that were started together. -/
structure Job where
  processes : List ProcessId
  /-- How those ended of which the shell has heard. -/
  ends : List (ProcessId × ExitStatus) := []
  deriving DecidableEq, Repr

/-- What a shell remembers. -/
structure Session where
  /-- The name of the shell in its messages. -/
  name : String := "sh"
  parameters : List String := []
  bindings : Dict Variable := .empty
  functions : Dict Command := .empty
  aliases : Dict String := .empty
  /-- The letters of the options that are on. -/
  options : List Char := []
  /-- What is done at the end (under zero) and at signals. -/
  traps : List (Nat × String) := []
  /-- The jobs that were not waited for when they started, in order. -/
  jobs : List Job := []
  /-- The last process that was not waited for when it started. -/
  lastBackground : Option ProcessId := none
  /-- The process of the shell in which everything began. -/
  id : ProcessId := 0
  /-- The status of the last command. -/
  status : Nat := 0
  /-- The status of the last command whose output was taken. -/
  substitutionStatus : Nat := 0
  /-- The status before a trap began. -/
  savedStatus : Option Nat := none
  /-- The line of the command under way. -/
  line : Nat := 1
  /-- The line up to which the text of the commands has been read. -/
  lineRead : Nat := 1
  /-- The builtin under way. -/
  builtin : Option String := none
  skip : Skip := .nothing
  /-- In how many loops the command under way stands. -/
  loops : Nat := 0
  /-- What variables were outside of the functions under way. -/
  frames : List (List (String × Option Variable)) := []
  /-- In how many functions the command under way stands. -/
  functionDepth : Nat := 0
  mask : Nat := 0o022
  /-- Where in a parameter the next option stands. -/
  optionOffset : Nat := 0
  /-- Texts that stand in scripts. -/
  documents : List (Nat × Word) := []
  nextDocument : Nat := 0

/-- Why a shell stops what it does. -/
inductive Jump
  | ended
  /-- It was told to. -/
  | exited
  /-- There was an error. -/
  | failed
  deriving DecidableEq, Repr

abbrev ShellAction (α : Type) := ExceptT Jump (StateT Session Process) α

namespace ShellAction

variable {α : Type}

def lift (action : Process α) : ShellAction α :=
  ExceptT.lift (StateT.lift action)

/-- Run an action and tell how it went. -/
def attempt (action : ShellAction α) : ShellAction (Except Jump α) :=
  ExceptT.lift (ExceptT.run action)

/-- Go on in the way that an action went. -/
def settle : Except Jump α → ShellAction α
  | .ok value => return value
  | .error jump => throw jump

/-- Run an action and then another one, however the first went. -/
def andFinally (action : ShellAction α) (ending : ShellAction Unit) :
    ShellAction α := do
  let result ← attempt action
  ending
  settle result

def print (descriptor : Nat) (text : String) : ShellAction Unit :=
  lift (Process.print descriptor text)

def warn (message : String) : ShellAction Unit := do
  let session ← get
  let place := s!"{session.name}: {session.line}: "
  let place :=
    match session.builtin with
    | some name => place ++ name ++ ": "
    | none => place
  print 2 (place ++ message ++ "\n")

def fail (message : String) : ShellAction α := do
  warn message
  modify fun session => { session with status := 2 }
  throw .failed

def failReading (message : String) : ShellAction α := do
  modify fun session => { session with line := session.lineRead }
  fail message

/-- A variable, with a value or without one. -/
def held? (name : String) : ShellAction (Option Variable) :=
  return (← get).bindings.get? name

def value? (name : String) : ShellAction (Option String) :=
  return (← held? name).bind Variable.value

def hasOption (letter : Char) : ShellAction Bool :=
  return (← get).options.contains letter

def changeVariable (name : String) (change : Variable → Variable) :
    ShellAction Unit := do
  let held := ((← held? name).getD ⟨none, false, false⟩)
  if held.readOnly then fail s!"{name}: is read only"
  let exports ← hasOption 'a'
  let changed := change held
  let changed := { changed with exported := changed.exported || exports }
  modify fun session =>
    { session with
      bindings := session.bindings.insert name changed
      optionOffset := if name == "OPTIND" then 0 else session.optionOffset }

def setVariable (name value : String) : ShellAction Unit :=
  changeVariable name fun held => { held with value := some value }

/-- Take a variable away. -/
def unsetVariable (name : String) : ShellAction Unit := do
  if ((← held? name).any Variable.readOnly) then
    fail s!"{name}: is read only"
  modify fun session =>
    { session with bindings := session.bindings.erase name }

/-- Remember what a variable was outside of the function under way. -/
def makeLocal (name : String) : ShellAction Unit :=
  modify fun session =>
    match session.frames with
    | frame :: frames =>
        { session with
          frames := ((name, session.bindings.get? name) :: frame) :: frames }
    | [] => session

/-- Begin to remember what variables were. -/
def pushFrame : ShellAction Unit :=
  modify fun session => { session with frames := [] :: session.frames }

/-- Make variables again what they were. -/
def popFrame : ShellAction Unit :=
  modify fun session =>
    match session.frames with
    | frame :: frames =>
        { session with
          frames
          bindings := frame.foldl (fun bindings entry =>
            match entry.2 with
            | some held => bindings.insert entry.1 held
            | none => bindings.erase entry.1) session.bindings }
    | [] => session

/-- The exported variables with their values. -/
def environment : ShellAction (List (String × String)) := do
  return (← get).bindings.toList.filterMap fun (name, held) =>
    if held.exported then held.value.map fun value => (name, value) else none

/-! ## Traps -/

/-- Do something at a signal or at the end, or nothing special any more. -/
def setTrap (signal : Nat) (action : Option String) : ShellAction Unit := do
  modify fun session =>
    let others := session.traps.filter fun trap => trap.1 != signal
    { session with
      traps :=
        match action with
        | some action => (signal, action) :: others
        | none => others }
  if signal != 0 then
    let without := List.filter (· != signal)
    lift (Process.changeOwn fun process =>
      { process with
        ignored :=
          if action == some "" then signal :: process.ignored
          else without process.ignored
        caught :=
          if action.any (· != "") then signal :: process.caught
          else without process.caught })

/-- Whether something special is done at a signal or at the end. -/
def hasTraps : ShellAction Bool :=
  return (← get).traps.any fun trap => trap.2 != ""

def beginSubshell : ShellAction Unit :=
  modify fun session =>
    { session with
      traps := session.traps.filter fun trap => trap.2 == ""
      jobs := []
      lineRead := 1
      savedStatus := none }

/-- The first signal that came and has not been dealt with, by number. -/
def takeSignal? : ShellAction (Option Nat) :=
  lift (Process.act fun id world =>
    match world.process? id with
    | none => (none, world)
    | some process =>
        match process.pending.min? with
        | none => (none, world)
        | some signal =>
            (some signal, world.update id fun process =>
              { process with
                pending := process.pending.filter (· != signal) }))

/-- A number that counts something. -/
def number (text : String) : ShellAction Nat := do
  match integer? false text with
  | some value =>
      if 0 ≤ value && value < 2147483648 then return value.toNat
      else fail s!"Illegal number: {text}"
  | none => fail s!"Illegal number: {text}"

end ShellAction

end Deobfuscate.Shell
