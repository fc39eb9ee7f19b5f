import Deobfuscate.Cache.Error
import Deobfuscate.Patch.Bundle
import Deobfuscate.Patch.WorkingSet
import Deobfuscate.Settings.Load
import Deobfuscate.Source.Load
import Deobfuscate.Tool.Result

/-!
# What can go wrong with stages
-/

namespace Deobfuscate

/-- Why patches could not be applied. -/
inductive PatchError
  | bundle (error : Patch.BundleError)
  | diff (error : Patch.DiffError)
  | rejected (target reason : String) (reports : List Patch.Report)
  /-- A position is not a machine word, at which the whole run stops. -/
  | overflow
  deriving DecidableEq, Repr

namespace PatchError

def ofRejection (rejection : Patch.Rejection) : PatchError :=
  .rejected rejection.target rejection.reason rejection.reports

/-- The wording of what went wrong. -/
def message : PatchError → String
  | bundle error => error.message
  | diff error => error.message
  | rejected target reason _ => s!"patch for {target} rejected: {reason}"
  | overflow => "arithmetic overflow"

end PatchError

/-- Why a stage, a chain or a pipeline failed. -/
inductive StageError
  | cache (error : CacheError)
  | settings (error : Settings.Error)
  | mapping (error : Mapping.Error)
  | patch (error : PatchError)
  | rename (error : Source.RenameError)
  | tool (error : ToolError)
  | archive (path : Path) (error : ArchiveError)
  | files (path : Path) (problem : Problem)
  | missingOutput (stage : String) (path : Path)
  | missingSetting (name : String)

/-- The wording of what went wrong. -/
def StageError.message : StageError → String
  | .cache error => error.message
  | .settings error => error.message
  | .mapping error => error.message
  | .patch error => error.message
  | .rename error => error.message
  | .tool error => error.message
  | .archive path error =>
      s!"failed to process artifact {path.text}: {error.message}"
  | .files path problem =>
      s!"i/o error on {path.text}: {problem.message}"
  | .missingOutput stage path =>
      s!"stage `{stage}` finished without writing {path.text}"
  | .missingSetting name => s!"missing configuration value `{name}`"

end Deobfuscate
