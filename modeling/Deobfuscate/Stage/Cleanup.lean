import Deobfuscate.Settings.Basic
import Deobfuscate.Stage.Basic
import Deobfuscate.Stage.SwitchLabels

/-!
# Cleaning up decompiled sources

Fix-ups mend what a decompiler gets wrong.  The patch files of one base name
form a group, whose specifications compete for their targets.  Afterwards the
blank lines around switch labels go.
-/

namespace Deobfuscate.Cleanup

open Deobfuscate.Patch

/-- How fix-ups are applied. -/
def fixupOptions (settings : CleanupSettings) : Options where
  maxFuzz := settings.maxFuzz
  strip := settings.strip
  allowFailure := false
  canonicalizeAccess := false

def failureEvents (group : String) (report : Report) : List LogEvent :=
  (if report.hunks.isEmpty then [.fixupRefused group report] else []) ++
    (report.hunks.filter (·.status = .failure)).map fun hunk =>
      .fixupHunkFailed group report hunk

def specsOf : List PatchFile → Except DiffError (List Spec)
  | [] => .ok []
  | file :: rest => do
      let specs ← Patch.parse file.text file.name
      return specs ++ (← specsOf rest)

def applyGroup (options : Options) (set : WorkingSet) (group : String)
    (files : List PatchFile) : StageAction WorkingSet := do
  match specsOf files with
  | .error error => throw (.patch (.diff error))
  | .ok specs =>
      match Patch.applySpecs? set specs options with
      | none => throw (.patch .overflow)
      | some (set, .ok _) => return set
      | some (_, .error rejection) =>
          let failed := rejection.reports.filter (·.status = .failure)
          (failed.flatMap (failureEvents group)).forM StageAction.report
          throw (.patch (.ofRejection rejection))

def applyGroups (options : Options) :
    WorkingSet → List (String × List PatchFile) → StageAction WorkingSet
  | set, [] => return set
  | set, (group, files) :: rest => do
      applyGroups options (← applyGroup options set group files) rest

/-- Apply the fix-ups of a directory, if there is one. -/
def applyFixups (settings : CleanupSettings) (set : WorkingSet) :
    StageAction WorkingSet := do
  match settings.patches with
  | none => return set
  | some directory =>
      let files ← StageAction.consult (loadBundle · directory)
        (.patch ∘ .bundle)
      applyGroups (fixupOptions settings) set (groupByBase files)

/-- Clean up sources. -/
def run (settings : CleanupSettings) (paths : StagePaths) :
    StageAction Unit := do
  let artifact ← paths.loadInput
  let sources ← applyFixups settings artifact.sources
  let sources :=
    if settings.normalizeLabels then
      sources.map fun _ text => SwitchLabels.normalize text
    else sources
  paths.saveOutput { artifact with sources }

def inputs (settings : CleanupSettings) : List HashInput :=
  [.optionalDirectory settings.patches,
    .int64 (Int64.ofNat settings.strip),
    .int64 (Int64.ofNat settings.maxFuzz),
    .bool settings.normalizeLabels]

def stage (settings : CleanupSettings) : Stage where
  name := "cleanup"
  inputs := fun _ => inputs settings
  run := run settings

end Deobfuscate.Cleanup
