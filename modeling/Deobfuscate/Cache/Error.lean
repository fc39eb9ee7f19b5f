import Deobfuscate.Archive.Error
import Deobfuscate.Digest.Memo
import Deobfuscate.Text.Quoted

/-!
# What can go wrong with the cache
-/

namespace Deobfuscate

/-- Why hashing, locking or filling the cache failed. -/
inductive CacheError
  | missingHome
  | files (problem : Problem)
  | input (error : InputError)
  | lockTimeout (path : Path)
  | invalidName (name : String)
  | archive (path : Path) (error : ArchiveError)
  deriving DecidableEq, Repr

/-- The wording of what went wrong. -/
def CacheError.message : CacheError → String
  | .missingHome => "failed to determine home directory for default cache path"
  | .files problem => s!"io error: {problem.message}"
  | .input error => error.message
  | .lockTimeout path => s!"timed out waiting for cache lock {path.text}"
  | .invalidName name => s!"invalid cache entry name {Text.quote name}"
  | .archive path error =>
      s!"failed to extract {path.text}: {error.message}"

end Deobfuscate
