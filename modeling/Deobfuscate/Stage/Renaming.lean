import Deobfuscate.Settings.Basic
import Deobfuscate.Stage.Basic

/-!
# Renaming sources

The names of all sources are replaced by human ones.
-/

namespace Deobfuscate.Renaming

open Deobfuscate.Source

def javadocMode (settings : RenameSettings) : JavadocMode :=
  if settings.skipJavadoc then .skip
  else if settings.stubJavadoc then .stub
  else .full

def modeWord : JavadocMode → String
  | .full => "full"
  | .stub => "dummy"
  | .skip => "skip"

def run (files : TableFiles) (mode : JavadocMode) (paths : StagePaths) :
    StageAction Unit := do
  let artifact ← paths.loadInput
  let tables ← StageAction.consult (Tables.load · files) .rename
  match (Renamer.mk tables mode).renameAll artifact.sources with
  | .error error => throw (.rename (.boundary error))
  | .ok (sources, summary) =>
      (summary.unused.map LogEvent.genericUnused).forM StageAction.report
      paths.saveOutput { artifact with sources }

def inputs (files : TableFiles) (mode : JavadocMode) : List HashInput :=
  [.file files.fields, .file files.methods,
    .optionalFile files.parameters,
    .optionalFile files.generics,
    .optionalFile files.edits,
    .text (modeWord mode)]

def stage (files : TableFiles) (mode : JavadocMode) : Stage where
  name := "remap"
  inputs := fun _ => inputs files mode
  run := run files mode

end Deobfuscate.Renaming
