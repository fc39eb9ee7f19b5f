import Deobfuscate.Shell.Session

/-!
# Processes of the shell

Processes that run side by side are joined by pipes.  The shell keeps both ends
of a pipe until the processes that use it have started.
-/

namespace Deobfuscate.Shell

/-- Where the shell keeps the ends of pipes that its processes will use. -/
def privateDescriptor (pipe : Nat) (isStart : Bool) : Nat :=
  1000 + 2 * pipe + if isStart then 1 else 0

/-- Make a pipe and keep both of its ends. -/
def makePipe : Process Nat :=
  Process.act fun id world =>
    let (pipe, world) := world.addPipe []
    (pipe, world.update id fun process =>
      { process with
        descriptors :=
          (process.descriptors.set (privateDescriptor pipe false)
            (.pipeEnd pipe)).set (privateDescriptor pipe true)
              (.pipeStart pipe) })

/-- Let go of one end of a pipe. -/
def dropPipe (pipe : Nat) (isStart : Bool) : Process Unit :=
  Process.changeOwn fun process =>
    { process with
      descriptors :=
        process.descriptors.close (privateDescriptor pipe isStart) }

def usePipes (input output : Option Nat) : Process Unit :=
  Process.changeOwn fun process =>
    let own := process.descriptors.filter fun entry => entry.1 < 1000
    let own : Descriptors :=
      match input with
      | some pipe => Descriptors.set own 0 (.pipeEnd pipe)
      | none => own
    { process with
      descriptors :=
        match output with
        | some pipe => own.set 1 (.pipeStart pipe)
        | none => own }

/-- Become a process that nobody waits for. -/
def goToBackground (isFirst : Bool) : Process Unit :=
  Process.changeOwn fun process =>
    { process with
      ignored := interruptSignal :: quitSignal :: process.ignored
      descriptors :=
        if isFirst then process.descriptors.set 0 .null
        else process.descriptors }

def forkShell (conclude : ShellAction Nat → ShellAction Nat)
    (setup : Process Unit) (body : ShellAction Nat) :
    ShellAction ProcessId := do
  let session ← get
  let child : Process Nat := do
    let whole : ShellAction Nat := do
      ShellAction.beginSubshell
      ShellAction.lift setup
      body
    let (result, _) ← (conclude whole).run.run session
    return result.toOption.getD 2
  ShellAction.lift (Process.fork (Process.task child))

/-- Without the line ends at the end, and without zeros. -/
def substituted (bytes : Bytes) : String :=
  let kept := bytes.filter (· != 0)
  ofBytes (kept.reverse.dropWhile (· == 0x0A)).reverse

end Deobfuscate.Shell
