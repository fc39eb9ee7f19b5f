import Deobfuscate.Shell.Task

/-!
# Running processes side by side

Of the processes that can go on, the one that can do so first does its next
step.  Steps take a little time, and starting a process takes more of it.  At
its deadline the tool is asked to end, and a while later it is made to.
-/

namespace Deobfuscate.Shell

def stepTime : Nat := 4

/-- What a process needs to start another one. -/
def forkTime : Nat := 150

/-- What passes before a new process does its first step. -/
def startTime : Nat := 600

/-- How long a tool that was asked to end may take. -/
def graceTime : Nat := 250000

/-- A process under way. -/
structure Running where
  id : ProcessId
  task : Task
  /-- When it can go on at the earliest. -/
  ready : Nat

/-- When a process can go on, as things are. -/
def Running.due? (process : Running) (world : World) : Option Nat :=
  match process.task with
  | .await isReady wake _ =>
      if isReady process.id world then some (max process.ready world.now)
      else wake.map (max process.ready)
  | _ => some process.ready

/-- All processes under way. -/
structure Scene where
  world : World
  running : List Running
  /-- The process of the tool itself. -/
  main : ProcessId
  /-- When which signals go to everyone, unless the tool has ended. -/
  alarms : List (Nat × Nat)
  timedOut : Bool := false

namespace Scene

/-- Whether nothing more is to be seen. -/
def isOver (scene : Scene) : Bool :=
  scene.world.hasEnded scene.main && !scene.world.isWatched

/-- The process that can go on first, and when. -/
def nextDue? (scene : Scene) : Option (Nat × Running) :=
  scene.running.foldl (fun best process =>
    match process.due? scene.world, best with
    | none, _ => best
    | some due, none => some (due, process)
    | some due, some (earliest, _) =>
        if due < earliest then some (due, process) else best) none

/-- Put a process back, with what it has left to do. -/
def resume (scene : Scene) (process : Running) : Scene :=
  { scene with
    running := scene.running.map fun other =>
      if other.id == process.id then process else other }

/-- Forget the processes that have ended. -/
def clear (scene : Scene) : Scene :=
  { scene with
    running := scene.running.filter fun process =>
      !scene.world.hasEnded process.id }

def advance (scene : Scene) (id : ProcessId) : Task → Scene
  | .look next => scene.advance id (next id scene.world)
  | .ended status =>
      { scene with world := scene.world.finish id status }.clear
  | .put world next =>
      { scene with world }.clear.resume
        { id, task := next, ready := world.now + stepTime }
  | .await isReady wake next =>
      scene.resume
        { id, task := .await isReady wake next, ready := scene.world.now }
  | .fork child next =>
      let now := scene.world.now
      let (childId, world) := scene.world.addProcess id
      let scene := { scene with world }.resume
        { id, task := next childId, ready := now + forkTime }
      { scene with
        running := scene.running ++
          [{ id := childId, task := child, ready := now + startTime }] }

/-- What is left to do of a task that can go on. -/
def awaken : Task → Task
  | .await _ _ next => next
  | task => task

/-- Send a signal to everyone if the tool has not ended. -/
def alarm (scene : Scene) (time signal : Nat) : Scene :=
  if scene.world.hasEnded scene.main then scene
  else
    { scene with
      world := { scene.world with now := time }.signalAll signal
      timedOut := true }.clear

/-- Do what comes next, if anything does. -/
def step? (scene : Scene) : Option Scene :=
  if scene.isOver then none
  else
    match scene.nextDue?, scene.alarms with
    | none, [] => none
    | none, (time, signal) :: alarms =>
        some ({ scene with alarms }.alarm time signal)
    | some (due, process), [] =>
        let scene := { scene with world := { scene.world with now := due } }
        some (scene.advance process.id (awaken process.task))
    | some (due, process), (time, signal) :: alarms =>
        if time ≤ due then some ({ scene with alarms }.alarm time signal)
        else
          let scene := { scene with world := { scene.world with now := due } }
          some (scene.advance process.id (awaken process.task))

/-- Go on until nothing more is to be seen, in at most so many steps. -/
def run : Nat → Scene → Scene
  | 0, scene => scene
  | fuel + 1, scene =>
      match scene.step? with
      | none => scene
      | some scene => run fuel scene

/-- The start of a tool that may take a number of milliseconds. -/
def start (world : World) (main : ProcessId) (task : Task)
    (timeout : Option Nat) : Scene where
  world := world
  running := [{ id := main, task, ready := world.now + startTime }]
  main := main
  alarms :=
    match timeout with
    | none => []
    | some milliseconds =>
        let time := milliseconds * 1000
        [(time, terminateSignal), (time + graceTime, killSignal)]

end Scene

end Deobfuscate.Shell
