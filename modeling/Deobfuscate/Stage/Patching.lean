import Deobfuscate.Cache.Replace
import Deobfuscate.Settings.Basic
import Deobfuscate.Stage.Basic

/-!
# Patching sources

Files from directories are put into the artifact, and then the patch files of
bundles are applied.  All of them are tried, so that the log tells about every
failure, before a failure counts.
-/

namespace Deobfuscate.Patching

open Deobfuscate.Patch

/-- How patches are applied.  Failures are collected. -/
def patchOptions (settings : PatchSettings) : Options where
  maxFuzz := settings.maxFuzz
  strip := settings.strip
  allowFailure := true
  canonicalizeAccess := settings.canonicalizeAccess

def injectFiles (directory : Path) :
    Artifact → List (Location × Bytes) → Except StageError Artifact
  | artifact, [] => .ok artifact
  | artifact, (location, content) :: rest =>
      let name := FileTree.relativeText location
      match artifact.insert name content with
      | .ok artifact => injectFiles directory artifact rest
      | .error error =>
          let path := location.foldl Path.child directory
          .error (.archive path error)

/-- Put the files of directories into an artifact. -/
def inject (tree : FileTree) :
    Artifact → List Path → Except StageError Artifact
  | artifact, [] => .ok artifact
  | artifact, directory :: rest =>
      match tree.find directory with
      | .error problem => .error (.files directory problem)
      | .ok (location, _) => do
          let artifact ←
            injectFiles directory artifact (tree.sortedFilesBelow location)
          inject tree artifact rest

/-- What applying bundles has done so far. -/
structure Applied where
  set : WorkingSet
  log : Log := {}
  failed : List Report := []

def Applied.record (applied : Applied) (set : WorkingSet)
    (reports : List Report) : Applied :=
  { set
    log := applied.log.record reports
    failed := applied.failed ++ reports.filter (·.status = .failure) }

def Applied.announce (applied : Applied) (file : PatchFile)
    (bundle : Path) : Applied :=
  { applied with log := applied.log.applying file.name bundle.text }

def applyFiles (options : Options) (bundle : Path) :
    List PatchFile → ExceptT PatchError (StateM (Applied × List LogEvent)) Unit
  | [] => return ()
  | file :: rest => do
      modify fun (applied, events) => (applied.announce file bundle, events)
      match Patch.parse file.text file.name with
      | .error error => throw (.diff error)
      | .ok specs =>
          let (applied, events) ← get
          match Patch.applySpecs? applied.set specs options with
          | none => throw .overflow
          | some (_, .error rejection) => throw (.ofRejection rejection)
          | some (changed, .ok reports) =>
              let failed := reports.filter (·.status = .failure)
              set (applied.record changed reports,
                events ++ failed.map (LogEvent.patchFailed file.name))
              applyFiles options bundle rest

def applyBundles (tree : FileTree) (options : Options) :
    List Path → ExceptT PatchError (StateM (Applied × List LogEvent)) Unit
  | [] => return ()
  | bundle :: rest => do
      match loadBundle tree bundle with
      | .error error => throw (.bundle error)
      | .ok files => do
          applyFiles options bundle files
          applyBundles tree options rest

def logName : String := "patching.log"

def rejection (log : Path) (failed : List Report) : PatchError :=
  let target := (failed.head?.map Report.target).getD ""
  .rejected target s!"{failed.length} patch(es) failed, see {log.text}" failed

/-- Write the log of a run, unless the run stops. -/
def writeLog (log : Path) (text : String) :
    Except PatchError Unit → StageAction Unit
  | .error .overflow => throw (.patch .overflow)
  | _ =>
      StageAction.files (Cache.atomicWrite log (Text.encode text)) .cache

def run (settings : PatchSettings) (paths : StagePaths) :
    StageAction Unit := do
  let artifact ← paths.loadInput
  let artifact ←
    StageAction.consult (inject · artifact settings.injections) id
  let (result, applied, events) :=
    (applyBundles (← get).tree (patchOptions settings) settings.bundles).run
      ({ set := artifact.sources }, [])
  events.forM StageAction.report
  let log := paths.scratch.child logName
  writeLog log applied.log.text result
  match result with
  | .error error => throw (.patch error)
  | .ok _ =>
      if !applied.failed.isEmpty && !settings.allowFailure then
        throw (.patch (rejection log applied.failed))
      paths.saveOutput { artifact with sources := applied.set }

def bundleInput (tree : FileTree) (bundle : Path) : HashInput :=
  if tree.isDirectory bundle then .directory bundle else .file bundle

def inputs (settings : PatchSettings) (tree : FileTree) : List HashInput :=
  settings.bundles.map (bundleInput tree) ++
    settings.injections.map HashInput.directory ++
    [.int64 (Int64.ofNat settings.maxFuzz),
      .int64 (Int64.ofNat settings.strip),
      .bool settings.allowFailure,
      .bool settings.canonicalizeAccess]

def stage (settings : PatchSettings) : Stage where
  name := "patch"
  inputs := inputs settings
  run := run settings

end Deobfuscate.Patching
