import Deobfuscate.FileTree.Problem
import Deobfuscate.Text.Bytes
import Deobfuscate.Tool.Command

/-!
# What running a tool gives

A tool ends by itself or by a signal.  What it wrote is kept up to a limit for
each of its two outputs.
-/

namespace Deobfuscate

/-- How a process ended. -/
inductive ExitStatus
  | exited (code : Nat)
  | killed (signal : Nat)
  deriving DecidableEq, Repr

def signalNames : List String :=
  ["HUP", "INT", "QUIT", "ILL", "TRAP", "ABRT", "BUS", "FPE", "KILL", "USR1",
    "SEGV", "USR2", "PIPE", "ALRM", "TERM", "STKFLT", "CHLD", "CONT", "STOP",
    "TSTP", "TTIN", "TTOU", "URG", "XCPU", "XFSZ", "VTALRM", "PROF", "WINCH",
    "IO", "PWR", "SYS"]

def signalName? (number : Nat) : Option String :=
  if number = 0 then none else signalNames[number - 1]?

namespace ExitStatus

/-- Whether a process ended well. -/
def isSuccess (status : ExitStatus) : Bool :=
  status = .exited 0

def text : ExitStatus → String
  | exited code => s!"exit status: {code}"
  | killed signal =>
      s!"signal: {signal}" ++
        ((signalName? signal).map fun name => s!" (SIG{name})").getD ""

end ExitStatus

/-- The kept part of what a tool wrote. -/
structure ToolOutput where
  stdout : String
  stderr : String
  /-- Whether something was not kept. -/
  truncated : Bool
  deriving DecidableEq, Repr

namespace ToolOutput

/-- Both outputs, the second one on a line of its own. -/
def combined (output : ToolOutput) : String :=
  let broken := output.stdout ≠ "" ∧ output.stdout.toList.getLast? ≠ some '\n'
  if output.stderr = "" then output.stdout
  else if broken then output.stdout ++ "\n" ++ output.stderr
  else output.stdout ++ output.stderr

def ofBytes (limit : Nat) (stdout stderr : Bytes) : ToolOutput where
  stdout := Text.decodeLossy (stdout.take limit)
  stderr := Text.decodeLossy (stderr.take limit)
  truncated := limit < stdout.length || limit < stderr.length

end ToolOutput

/-- How running a tool went. -/
structure ToolResult where
  status : ExitStatus
  output : ToolOutput
  timedOut : Bool := false
  deriving DecidableEq, Repr

/-- Whether a tool ended well and in time. -/
def ToolResult.isSuccess (result : ToolResult) : Bool :=
  !result.timedOut && result.status.isSuccess

/-- Why a tool did not do its work. -/
inductive ToolError
  | notStarted (command : ToolCommand) (problem : Problem)
  | failed (command : ToolCommand) (result : ToolResult)

def outputSection (name content : String) : String :=
  if content = "" then "" else s!"{name}:\n{content}\n"

/-- The wording of a failure, with everything the tool wrote. -/
def failureText (command : ToolCommand) (result : ToolResult) : String :=
  let shown := "`" ++ command.text ++ "`"
  let status := result.status.text
  (if result.timedOut then s!"{shown} timed out and was killed ({status})\n"
    else s!"{shown} exited with {status}\n") ++
    outputSection "stdout" result.output.stdout ++
    outputSection "stderr" result.output.stderr ++
    if result.output.truncated then "(output truncated)\n" else ""

/-- The wording of what went wrong. -/
def ToolError.message : ToolError → String
  | .notStarted command problem =>
      "failed to run `" ++ command.text ++ "`: " ++ problem.message
  | .failed command result => failureText command result

end Deobfuscate
