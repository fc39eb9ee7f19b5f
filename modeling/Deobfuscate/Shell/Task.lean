import Deobfuscate.Shell.World

/-!
# What processes do

A process is a task: it looks at the world and changes it, waits until
something is the case, starts further processes and ends.  Between two steps of
one process others may do theirs.

Tasks are written as actions that give a result to what comes next.
-/

namespace Deobfuscate.Shell

/-- What a process still has to do. -/
inductive Task
  | ended (status : ExitStatus)
  /-- Look at the world. -/
  | look (next : ProcessId → World → Task)
  /-- Change the world. -/
  | put (world : World) (next : Task)
  /-- Wait until something is the case or, if that is earlier, for a time. -/
  | await (isReady : ProcessId → World → Bool) (wake : Option Nat)
      (next : Task)
  /-- Start another process. -/
  | fork (child : Task) (next : ProcessId → Task)

instance : Inhabited Task := ⟨.ended (.exited 0)⟩

/-- An action of a process, given what comes next. -/
def Process (α : Type) := (α → Task) → Task

namespace Process

variable {α β : Type}

instance : Monad Process where
  pure value := fun next => next value
  bind action rest := fun next => action fun value => rest value next

def view (look : ProcessId → World → α) : Process α :=
  fun next => .look fun id world => next (look id world)

def act (step : ProcessId → World → α × World) : Process α :=
  fun next => .look fun id world =>
    let (value, world) := step id world
    .put world (next value)

def change (step : ProcessId → World → World) : Process Unit :=
  act fun id world => ((), step id world)

def waitUntil (isReady : ProcessId → World → Bool) : Process Unit :=
  fun next => .await isReady none (next ())

/-- Let time pass. -/
def sleep (microseconds : Nat) : Process Unit :=
  fun next => .look fun _ world =>
    .await (fun _ _ => false) (some (world.now + microseconds)) (next ())

/-- Come to an end. -/
def exit (status : Nat) : Process α :=
  fun _ => .ended (.exited status)

def task (action : Process Nat) : Task :=
  action fun status => .ended (.exited status)

def fork (child : Task) : Process ProcessId :=
  fun next => .fork child next

def self : Process ProcessId :=
  view fun id _ => id

def own (view' : ProcessState → α) (default : α) : Process α :=
  view fun id world => ((world.process? id).map view').getD default

def changeOwn (step : ProcessState → ProcessState) : Process Unit :=
  change fun id world => world.update id step

def descriptors : Process Descriptors :=
  own ProcessState.descriptors []

def resolve (path : String) : Process Path :=
  view fun id world => world.placeOf id path

def tree : Process FileTree :=
  view fun _ world => world.tree

/-- For what a file is opened. -/
inductive Purpose
  | read
  /-- Write, after emptying the file. -/
  | write
  | append
  /-- Read and write. -/
  | update
  /-- Write to a file that must not be there. -/
  | create
  deriving DecidableEq

def descriptorOf? : String → Option Nat
  | "/dev/stdin" => some 0
  | "/dev/stdout" => some 1
  | "/dev/stderr" => some 2
  | path =>
      match path.toList with
      | '/' :: 'd' :: 'e' :: 'v' :: '/' :: 'f' :: 'd' :: '/' :: digits =>
          (String.ofList digits).toNat?
      | _ => none

def openFile (path : Path) (purpose : Purpose) (world : World) :
    Except Problem Endpoint × World :=
  let tree := world.tree
  match purpose with
  | .read =>
      match tree.find path with
      | .error problem => (.error problem, world)
      | .ok (location, _) =>
          let (endpoint, world) := world.addFile { location, canWrite := false }
          (.ok endpoint, world)
  | purpose =>
      match tree.locateFile path with
      | .error problem => (.error problem, world)
      | .ok location =>
          let file : OpenFile :=
            { location
              appends := purpose == .append
              canRead := purpose == .update }
          let kept : Bytes :=
            match purpose, tree.node? location with
            | .write, _ => []
            | _, some (.file content _ _) => content
            | _, _ => []
          let exists' := (tree.node? location).isSome
          if purpose == .create && exists' then
            (.error .alreadyExists, world)
          else
            match tree.writeAt location kept tree.clock with
            | .error problem => (.error problem, world)
            | .ok written =>
                let tree :=
                  if exists' && purpose != .write then tree else written
                let (endpoint, world) := { world with tree }.addFile file
                (.ok endpoint, world)

/-- Open a file or a device. -/
def openPath (path : String) (purpose : Purpose) :
    Process (Except Problem Endpoint) := do
  match path, descriptorOf? path with
  | "/dev/null", _ => return .ok .null
  | "/dev/zero", _ => return .ok .zero
  | _, some number =>
      match (← descriptors).lookup number with
      | some endpoint => return .ok endpoint
      | none => return .error .notFound
  | _, none =>
      let place ← resolve path
      act fun _ world => openFile place purpose world

/-- How much a pipe holds. -/
def pipeCapacity : Nat := 65536

/-- Read at most so many bytes from where a descriptor leads; nothing means that
there is no more. -/
def readEndpoint (limit : Nat) : Endpoint → Process (Except Problem Bytes)
  | .null => return .ok []
  | .zero => return .ok (List.replicate limit 0)
  | .captured _ | .pipeStart _ => return .error .badDescriptor
  | .file number => act fun _ world => world.readFile number limit
  | .pipeEnd number => do
      waitUntil fun _ world =>
        !(world.pipeContent number).isEmpty ||
          !world.isHeld (.pipeStart number)
      act fun _ world =>
        let content := world.pipeContent number
        (.ok (content.take limit), world.setPipe number (content.drop limit))

def read (descriptor limit : Nat) : Process (Except Problem Bytes) := do
  match (← descriptors).lookup descriptor with
  | none => return .error .badDescriptor
  | some endpoint => readEndpoint limit endpoint

/-- Write to a pipe, at most as often as the fuel says.  Who writes to a pipe
that nobody reads gets a signal. -/
def writePipe (number : Nat) : Nat → Bytes → Process (Except Problem Unit)
  | 0, _ => return .ok ()
  | fuel + 1, bytes => do
      if bytes.isEmpty then return .ok ()
      waitUntil fun _ world =>
        (world.pipeContent number).length < pipeCapacity ||
          !world.isHeld (.pipeEnd number)
      let written ← act fun id world =>
        if !world.isHeld (.pipeEnd number) then
          (none, world.signal pipeSignal id)
        else
          let content := world.pipeContent number
          let space := pipeCapacity - content.length
          (some space, world.setPipe number (content ++ bytes.take space))
      match written with
      | none => return .error .brokenPipe
      | some space => writePipe number fuel (bytes.drop space)

def writeEndpoint (bytes : Bytes) : Endpoint → Process (Except Problem Unit)
  | .null | .zero => return .ok ()
  | .captured stream =>
      act fun _ world =>
        (.ok (), { world with captured := (stream, bytes) :: world.captured })
  | .file number => act fun _ world => world.writeFile number bytes
  | .pipeStart number => writePipe number (bytes.length + 1) bytes
  | .pipeEnd _ => return .error .badDescriptor

def bytesPerMicrosecond : Nat := 128

/-- Write to a descriptor.  Many bytes take some time. -/
def write (descriptor : Nat) (bytes : Bytes) :
    Process (Except Problem Unit) := do
  if bytes.isEmpty then return .ok ()
  let duration := bytes.length / bytesPerMicrosecond
  if duration != 0 then sleep duration
  match (← descriptors).lookup descriptor with
  | none => return .error .badDescriptor
  | some endpoint => writeEndpoint bytes endpoint

def print (descriptor : Nat) (text : String) : Process Unit := do
  let _ ← write descriptor (toBytes text)

/-- How much is read at a time. -/
def blockSize : Nat := 131072

/-- Read everything that a descriptor still gives, in at most so many steps. -/
def readAll (endpoint : Endpoint) :
    Nat → List Bytes → Process (Except Problem Bytes)
  | 0, blocks => return .ok blocks.reverse.flatten
  | fuel + 1, blocks => do
      match ← readEndpoint blockSize endpoint with
      | .error problem => return .error problem
      | .ok [] => return .ok blocks.reverse.flatten
      | .ok block => readAll endpoint fuel (block :: blocks)

end Process

end Deobfuscate.Shell
