import Deobfuscate.Shell.Session

/-!
# Waiting for processes

A shell waits for the processes that it starts, now or later.  Who waits for a
process hears of the signal that ended it.
-/

namespace Deobfuscate.Shell

/-- The descriptions of the signals by number, from one on. -/
def signalTexts : List String :=
  ["Hangup", "Interrupt", "Quit", "Illegal instruction",
    "Trace/breakpoint trap", "Aborted", "Bus error",
    "Floating point exception", "Killed", "User defined signal 1",
    "Segmentation fault", "User defined signal 2", "Broken pipe",
    "Alarm clock", "Terminated", "Stack fault", "Child exited", "Continued",
    "Stopped (signal)", "Stopped", "Stopped (tty input)",
    "Stopped (tty output)", "Urgent I/O condition", "CPU time limit exceeded",
    "File size limit exceeded", "Virtual timer expired",
    "Profiling timer expired", "Window changed", "I/O possible",
    "Power failure", "Bad system call"]

def signalText (signal : Nat) : String :=
  match signalTexts[signal - 1]? with
  | some text => text
  | none =>
      if signal < 34 then s!"Unknown signal {signal}"
      else s!"Real-time signal {signal - 34}"

def shellStatus : ExitStatus → Nat
  | .exited code => code % 256
  | .killed signal => 128 + signal

def World.forget (world : World) (id : ProcessId) : World :=
  { world with
    processes := world.processes.filter fun process => process.id != id }

/-- What is said about a process that a signal ended. -/
def endText : ExitStatus → String
  | .exited _ => ""
  | .killed signal =>
      if signal == interruptSignal || signal == pipeSignal then ""
      else signalText signal ++ "\n"

/-- How long it takes until a shell can hear of the end of a process that it
does not wait for. -/
def hearingTime : Nat := 500

namespace Job

def unheard (job : Job) : List ProcessId :=
  job.processes.filter fun id => (job.ends.lookup id).isNone

def isDone (job : Job) (world : World) : Bool :=
  job.unheard.all world.hasEnded

def status (job : Job) : Nat :=
  match job.processes.getLast?.bind fun id => job.ends.lookup id with
  | some ended => shellStatus ended
  | none => 0

/-- Take note of the processes that ended some time ago. -/
def hear (job : Job) (delay : Nat) (world : World) : Job × World :=
  job.unheard.foldl (fun (job, world) id =>
    match world.process? id with
    | none => (job, world)
    | some process =>
        match process.ended with
        | none => (job, world)
        | some ended =>
            if process.endTime + delay ≤ world.now then
              ({ job with ends := job.ends ++ [(id, ended)] }, world.forget id)
            else (job, world)) (job, world)

end Job

namespace ShellAction

/-- Take note of the jobs that ended some time ago. -/
def hearOfJobs (delay : Nat) : ShellAction Unit := do
  let jobs := (← get).jobs
  if jobs.isEmpty then return ()
  let jobs ← lift (Process.act fun _ world =>
    jobs.foldl (fun (heard, world) job =>
      let (job, world) := job.hear delay world
      (heard ++ [job], world)) ([], world))
  modify fun session => { session with jobs }

/-- Take note of the end of a job that was waited for, and tell how its
processes ended. -/
def closeJob (job : Job) : ShellAction Job := do
  let before := job.ends.length
  let job ← lift (Process.act fun _ world => job.hear 0 world)
  let texts := (job.ends.drop before).map fun ended => endText ended.2
  if texts.any (· != "") then print 2 (String.join texts)
  return job

def waitForJob (job : Job) : ShellAction Nat := do
  lift (Process.waitUntil fun _ world => job.isDone world)
  let job ← closeJob job
  hearOfJobs hearingTime
  return job.status

/-- The last signal that came and has not been dealt with, unless it says only
that a process has ended. -/
def pendingSignal? (id : ProcessId) (world : World) : Option Nat :=
  (world.process? id).bind fun process =>
    (process.pending.filter (· != childSignal)).getLast?

def waitForSignalOr (isReady : World → Bool) : ShellAction (Option Nat) := do
  lift (Process.waitUntil fun id world =>
    isReady world || (pendingSignal? id world).isSome)
  lift (Process.view pendingSignal?)

/-- Remember a job that nobody waits for now. -/
def addJob (job : Job) : ShellAction Unit :=
  modify fun session =>
    { session with
      jobs := session.jobs ++ [job]
      lastBackground := job.processes.getLast? <|> session.lastBackground }

def waitForAll : ShellAction Nat := do
  let jobs := (← get).jobs
  match ← waitForSignalOr fun world => jobs.all (·.isDone world) with
  | some signal => return 128 + signal
  | none =>
      hearOfJobs 0
      return 0

def waitForProcess (id : ProcessId) : ShellAction Nat := do
  let isMeant (job : Job) : Bool := job.processes.getLast? == some id
  match (← get).jobs.find? isMeant with
  | none => return 127
  | some job =>
      match ← waitForSignalOr job.isDone with
      | some signal => return 128 + signal
      | none =>
          let job ← closeJob job
          modify fun session =>
            { session with
              jobs := session.jobs.map fun other =>
                if isMeant other then job else other }
          hearOfJobs hearingTime
          return job.status

end ShellAction

end Deobfuscate.Shell
