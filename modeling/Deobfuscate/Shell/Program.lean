import Deobfuscate.Shell.Format
import Deobfuscate.Shell.Host
import Deobfuscate.Shell.Shown

/-!
# Programs

What programs have in common: their options, their messages, and how they read
and write.
-/

namespace Deobfuscate.Shell

/-- A program: it gets its arguments and gives a status. -/
abbrev Program := List String → Process Nat

def systemText : Problem → String
  | .notFound => "No such file or directory"
  | .isADirectory => "Is a directory"
  | .notADirectory => "Not a directory"
  | .directoryNotEmpty => "Directory not empty"
  | .alreadyExists => "File exists"
  | .permissionDenied => "Permission denied"
  | .invalidData | .invalidInput => "Invalid argument"
  | .invalidFilename => "File name too long"
  | .resourceBusy => "Device or resource busy"
  | .badDescriptor => "Bad file descriptor"
  | .brokenPipe => "Broken pipe"
  | .other text => text

/-- Write a line to the messages; the status says that something failed. -/
def complain (line : String) : Process Nat := do
  Process.print 2 (line ++ "\n")
  return 1

/-- Complain about wrong usage of a program. -/
def misuse (program line : String) : Process Nat :=
  complain (s!"{program}: {line}\n" ++
    s!"Try '{program} --help' for more information.")

/-- The options of a command line and its operands.  Some options have a value,
which follows them. -/
structure CommandLine where
  options : List (Char × String) := []
  operands : List String := []
  deriving Repr

/-- Why a command line cannot be read. -/
inductive UsageFault
  | unknown (letter : Char)
  | unrecognized (argument : String)
  | incomplete (letter : Char)

/-- The wording of why a command line cannot be read. -/
def UsageFault.message : UsageFault → String
  | .unknown letter => s!"invalid option -- '{letter}'"
  | .unrecognized argument => s!"unrecognized option '{argument}'"
  | .incomplete letter => s!"option requires an argument -- '{letter}'"

def readLetters (plain valued : List Char) :
    List Char → List String →
      Except UsageFault (List (Char × String) × List String)
  | [], rest => .ok ([], rest)
  | letter :: letters, rest =>
      if plain.contains letter then do
        let (options, rest) ← readLetters plain valued letters rest
        return ((letter, "") :: options, rest)
      else if valued.contains letter then
        match letters, rest with
        | [], value :: rest => .ok ([(letter, value)], rest)
        | [], [] => .error (.incomplete letter)
        | letters, rest => .ok ([(letter, String.ofList letters)], rest)
      else .error (.unknown letter)

/-- Read a command line.  Options may stand between the operands. -/
def readCommandLine (plain valued : List Char) :
    Nat → List String → Except UsageFault CommandLine
  | 0, _ | _, [] => .ok {}
  | fuel + 1, argument :: rest =>
      match argument.toList with
      | ['-', '-'] => .ok { operands := rest }
      | '-' :: '-' :: _ => .error (.unrecognized argument)
      | '-' :: letter :: letters => do
          let (options, rest) ←
            readLetters plain valued (letter :: letters) rest
          let line ← readCommandLine plain valued fuel rest
          return { line with options := options ++ line.options }
      | _ => do
          let line ← readCommandLine plain valued fuel rest
          return { line with operands := argument :: line.operands }

def withOptions (program plain valued : String)
    (run : CommandLine → Process Nat) : Program := fun arguments =>
  match readCommandLine plain.toList valued.toList (arguments.length + 1)
      arguments with
  | .ok line => run line
  | .error fault => misuse program fault.message

def CommandLine.has (line : CommandLine) (letter : Char) : Bool :=
  line.options.any fun option => option.1 == letter

/-- How many blocks a program reads at most. -/
def blockLimit : Nat := 1000000000

def copyBlocks {σ : Type} (change : σ → Bytes → Bytes × σ)
    (source : Endpoint) : Nat → σ → Process (Except Problem σ)
  | 0, state => return .ok state
  | fuel + 1, state => do
      match ← Process.readEndpoint Process.blockSize source with
      | .error problem => return .error problem
      | .ok [] => return .ok state
      | .ok block =>
          let (changed, state) := change state block
          let _ ← Process.write 1 changed
          copyBlocks change source fuel state

def openOperand (operand : String) : Process (Except Problem Endpoint) := do
  if operand == "-" then
    match (← Process.descriptors).lookup 0 with
    | some endpoint => return .ok endpoint
    | none => return .error .badDescriptor
  else Process.openPath operand .read

def operandsOrInput (operands : List String) : List String :=
  if operands.isEmpty then ["-"] else operands

end Deobfuscate.Shell
