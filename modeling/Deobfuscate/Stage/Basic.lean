import Deobfuscate.Archive.Artifact
import Deobfuscate.Digest.Input
import Deobfuscate.Stage.Error

/-!
# Stages

A stage reads an artifact and writes another one.  Besides the artifact it may
depend on further inputs, which it declares.
-/

namespace Deobfuscate

/-- Something that went wrong during a run and is reported at once. -/
inductive LogEvent
  /-- No hunk of a fix-up of a group was tried. -/
  | fixupRefused (group : String) (report : Patch.Report)
  /-- A hunk of a fix-up of a group failed. -/
  | fixupHunkFailed (group : String) (report : Patch.Report)
      (hunk : Patch.HunkReport)
  /-- A target of a patch file failed. -/
  | patchFailed (patch : String) (report : Patch.Report)
  /-- Type arguments were not put back anywhere. -/
  | genericUnused (entry : Source.GenericEntry)
  deriving DecidableEq, Repr

namespace LogEvent

/-- The part of the program that tells about an event. -/
def source : LogEvent → String
  | genericUnused _ => "retro.remap"
  | _ => "retro.pipeline"

def message : LogEvent → String
  | fixupRefused _ _ => "fix-up patch failed"
  | fixupHunkFailed _ _ hunk =>
      "fix-up hunk failed:\n" ++ "\n".intercalate hunk.hunk.body
  | patchFailed _ _ => "patch failed"
  | genericUnused _ => "generic entry was never applied"

/-- The values that a message comes with, by name. -/
def details : LogEvent → List (String × String)
  | fixupRefused group report =>
      [("file", report.target), ("group", group),
        ("reason", report.failureMessage.getD "unknown")]
  | fixupHunkFailed group report hunk =>
      [("file", report.target), ("group", group),
        ("hunk", toString hunk.index), ("header", hunk.hunk.header)]
  | patchFailed patch report =>
      [("file", report.target), ("patch", patch),
        ("reason", report.failureMessage.getD "unknown")]
  | genericUnused entry =>
      [("file", entry.file), ("key", entry.key), ("slot", entry.slot.text),
        ("suffix", entry.suffix)]

end LogEvent

/-- What stages work on: the files, and the reported events in order. -/
structure Workspace where
  tree : FileTree
  log : List LogEvent := []
  deriving DecidableEq, Repr

abbrev StageAction (α : Type) := ExceptT StageError (StateM Workspace) α

namespace StageAction

variable {ε α : Type}

def files (action : FileAction ε α) (wrap : ε → StageError) :
    StageAction α := do
  let workspace ← get
  let (result, tree) := action.perform workspace.tree
  set { workspace with tree }
  match result with
  | .ok value => return value
  | .error error => throw (wrap error)

/-- Look something up in the files. -/
def consult (view : FileTree → Except ε α) (wrap : ε → StageError) :
    StageAction α := do
  match view (← get).tree with
  | .ok value => return value
  | .error error => throw (wrap error)

/-- Change the files; a change that fails is not made. -/
def change (path : Path) (step : FileTree → Except Problem FileTree) :
    StageAction Unit :=
  files (FileAction.change step id) (.files path)

/-- Change the files in several steps; those made before one fails stay. -/
def advance (path : Path) (steps : FileTree → FileTree.Outcome) :
    StageAction Unit :=
  files (FileAction.advance steps id) (.files path)

def report (event : LogEvent) : StageAction Unit :=
  modify fun workspace => { workspace with log := workspace.log ++ [event] }

/-- Run an action and afterwards, whether or not it failed, change the
files. -/
def finallyDo (action : StageAction α) (after : FileTree → FileTree) :
    StageAction α :=
  fun workspace =>
    let (result, workspace) := action.run workspace
    (result, { workspace with tree := after workspace.tree })

def perform (action : StageAction α) (workspace : Workspace) :
    Except StageError α × Workspace :=
  action.run workspace

end StageAction

/-- The paths that a stage gets for a run. -/
structure StagePaths where
  /-- The artifact to read. -/
  input : Option Path
  /-- Where the new artifact goes. -/
  output : Path
  /-- A directory for logs and other files. -/
  scratch : Path
  deriving DecidableEq, Repr

namespace StagePaths

/-- The artifact to read, which has to be given. -/
def requireInput (paths : StagePaths) : StageAction Path :=
  match paths.input with
  | some path => return path
  | none => throw (.missingSetting "chain.input")

def loadInput (paths : StagePaths) : StageAction Artifact := do
  let input ← paths.requireInput
  StageAction.consult (Artifact.load · input) (.archive input)

def saveOutput (paths : StagePaths) (artifact : Artifact) :
    StageAction Unit :=
  StageAction.files (artifact.save paths.output) (.archive paths.output)

end StagePaths

/-- A step from artifact to artifact. -/
structure Stage where
  name : String
  /-- All that the new artifact depends on besides the one that is read. -/
  inputs : FileTree → List HashInput
  run : StagePaths → StageAction Unit

end Deobfuscate
