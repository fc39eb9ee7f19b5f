import Deobfuscate.FileTree.Temporary
import Deobfuscate.Tool.Result

/-!
# Processes and what they share

Processes run side by side.  Each has descriptors that lead to files, pipes or
the outputs of the tool, a current directory, and a way to deal with signals.
Time is counted in microseconds.
-/

namespace Deobfuscate.Shell

open Deobfuscate.Text

/-- The text with one character for each byte. -/
def ofBytes (bytes : Bytes) : String :=
  String.ofList (bytes.map fun byte => Char.ofNat byte.toNat)

def toBytes (text : String) : Bytes :=
  text.toList.map fun char => UInt8.ofNat char.toNat

def ofText (text : String) : String :=
  ofBytes (encode text)

def toText (text : String) : String :=
  decodeLossy (toBytes text)

def interruptSignal : Nat := 2
def quitSignal : Nat := 3
def killSignal : Nat := 9
def pipeSignal : Nat := 13
def terminateSignal : Nat := 15
def childSignal : Nat := 17

/-- The signals that end nobody. -/
def harmlessSignals : List Nat := [0, 17, 18, 19, 20, 21, 22, 23, 28]

/-- Where a descriptor leads. -/
inductive Endpoint
  /-- Takes everything and gives nothing. -/
  | null
  /-- Gives zeros without end. -/
  | zero
  /-- One of the outputs of the tool. -/
  | captured (stream : Nat)
  /-- A file that has been opened. -/
  | file (number : Nat)
  /-- The end of a pipe that is read from. -/
  | pipeEnd (number : Nat)
  /-- The end of a pipe that is written to. -/
  | pipeStart (number : Nat)
  deriving DecidableEq, Repr

structure OpenFile where
  location : Location
  offset : Nat := 0
  /-- Whether everything is written at the end. -/
  appends : Bool := false
  canRead : Bool := true
  canWrite : Bool := true
  deriving DecidableEq, Repr

abbrev Descriptors := List (Nat × Endpoint)

/-- Let a descriptor lead somewhere. -/
def Descriptors.set (descriptors : Descriptors) (number : Nat)
    (endpoint : Endpoint) : Descriptors :=
  (number, endpoint) :: descriptors.filter fun entry => entry.1 != number

def Descriptors.close (descriptors : Descriptors) (number : Nat) :
    Descriptors :=
  descriptors.filter fun entry => entry.1 != number

abbrev ProcessId := Nat

def firstProcess : ProcessId := 4242

structure ProcessState where
  id : ProcessId
  /-- The process that started it. -/
  parent : ProcessId := 1
  descriptors : Descriptors
  directory : Path
  /-- The signals that have no effect. -/
  ignored : List Nat := []
  /-- The signals that the process wants to know of. -/
  caught : List Nat := []
  /-- The signals that it has not yet taken note of, in order. -/
  pending : List Nat := []
  ended : Option ExitStatus := none
  /-- When the process came to its end. -/
  endTime : Nat := 0

/-- All processes and what they share. -/
structure World where
  tree : FileTree
  now : Nat := 0
  processes : List ProcessState := []
  files : List (Nat × OpenFile) := []
  /-- What is in the pipes. -/
  pipes : List (Nat × Bytes) := []
  /-- What has been written to the outputs of the tool, the latest first. -/
  captured : List (Nat × Bytes) := []
  /-- The number of the next file, pipe or process. -/
  fresh : Nat := firstProcess + 1

namespace World

def process? (world : World) (id : ProcessId) : Option ProcessState :=
  world.processes.find? fun process => process.id == id

def update (world : World) (id : ProcessId)
    (change : ProcessState → ProcessState) : World :=
  { world with
    processes := world.processes.map fun process =>
      if process.id == id then change process else process }

def endOf (world : World) (id : ProcessId) : ExitStatus :=
  ((world.process? id).bind ProcessState.ended).getD (.exited 0)

def placeOf (world : World) (id : ProcessId) (path : String) : Path :=
  match world.process? id with
  | some process =>
      if path == "" then ⟨""⟩ else process.directory.child (toText path)
  | none => ⟨toText path⟩

def hasEnded (world : World) (id : ProcessId) : Bool :=
  match world.process? id with
  | some process => process.ended.isSome
  | none => true

/-- Let a process know of a signal if it wants to. -/
def notify (world : World) (number : Nat) (id : ProcessId) : World :=
  world.update id fun process =>
    if process.caught.contains number then
      { process with pending := process.pending ++ [number] }
    else process

/-- Let a process come to its end.  The process that started it can know. -/
def finish (world : World) (id : ProcessId) (status : ExitStatus) : World :=
  let parent := ((world.process? id).map ProcessState.parent).getD 0
  let world := world.update id fun process =>
    { process with
      descriptors := []
      ended := some status
      endTime := world.now }
  world.notify childSignal parent

/-- Whether some process has a descriptor that leads somewhere. -/
def isHeld (world : World) (endpoint : Endpoint) : Bool :=
  world.processes.any fun process =>
    process.descriptors.any fun entry => entry.2 == endpoint

/-- Whether some process can still write to the outputs of the tool. -/
def isWatched (world : World) : Bool :=
  world.isHeld (.captured 1) || world.isHeld (.captured 2)

/-- What was written to an output of the tool. -/
def writtenTo (world : World) (stream : Nat) : Bytes :=
  (world.captured.reverse.filter fun entry => entry.1 == stream).flatMap
    Prod.snd

def signal (world : World) (number : Nat) (id : ProcessId) : World :=
  match world.process? id with
  | none => world
  | some process =>
      if process.ended.isSome then world
      else if number == killSignal then world.finish id (.killed number)
      else if process.ignored.contains number then world
      else if process.caught.contains number then world.notify number id
      else if harmlessSignals.contains number then world
      else world.finish id (.killed number)

def signalAll (world : World) (number : Nat) : World :=
  (world.processes.map ProcessState.id).foldl
    (fun world id => world.signal number id) world

/-- Add a process like another one, with its own way to deal with signals. -/
def addProcess (world : World) (parent : ProcessId) : ProcessId × World :=
  let id := world.fresh
  let copy : List ProcessState :=
    match world.process? parent with
    | some process =>
        [{ process with id, parent, caught := [], pending := [] }]
    | none => []
  (id, { world with
    processes := world.processes ++ copy
    fresh := id + 1 })

def addFile (world : World) (file : OpenFile) : Endpoint × World :=
  (.file world.fresh, { world with
    files := (world.fresh, file) :: world.files
    fresh := world.fresh + 1 })

def addPipe (world : World) (content : Bytes) : Nat × World :=
  (world.fresh, { world with
    pipes := (world.fresh, content) :: world.pipes
    fresh := world.fresh + 1 })

/-- Change what a pipe holds. -/
def setPipe (world : World) (number : Nat) (content : Bytes) : World :=
  { world with
    pipes := (number, content) ::
      world.pipes.filter fun entry => entry.1 != number }

def pipeContent (world : World) (number : Nat) : Bytes :=
  (world.pipes.lookup number).getD []

def setFile (world : World) (number : Nat) (file : OpenFile) : World :=
  { world with
    files := (number, file) ::
      world.files.filter fun entry => entry.1 != number }

def readFile (world : World) (number limit : Nat) :
    Except Problem Bytes × World :=
  match world.files.lookup number with
  | none => (.error .badDescriptor, world)
  | some file =>
      if !file.canRead then (.error .badDescriptor, world)
      else
        match world.tree.node? file.location with
        | some (.file content _ _) =>
            let bytes := (content.drop file.offset).take limit
            (.ok bytes, world.setFile number
              { file with offset := file.offset + bytes.length })
        | some .directory => (.error .isADirectory, world)
        | none => (.ok [], world)

/-- Bytes with others written over them from an offset on; a gap is filled with
zeros. -/
def overwrite (content : Bytes) (offset : Nat) (bytes : Bytes) : Bytes :=
  content.take offset ++ List.replicate (offset - content.length) 0 ++ bytes ++
    content.drop (offset + bytes.length)

def writeFile (world : World) (number : Nat) (bytes : Bytes) :
    Except Problem Unit × World :=
  match world.files.lookup number with
  | none => (.error .badDescriptor, world)
  | some file =>
      if !file.canWrite then (.error .badDescriptor, world)
      else
        let content :=
          match world.tree.node? file.location with
          | some (.file content _ _) => content
          | _ => []
        let offset := if file.appends then content.length else file.offset
        match world.tree.writeAt file.location (overwrite content offset bytes)
            world.tree.clock with
        | .error problem => (.error problem, world)
        | .ok tree =>
            (.ok (), { world with tree }.setFile number
              { file with offset := offset + bytes.length })

end World

end Deobfuscate.Shell
