import Deobfuscate.Cache.Error
import Deobfuscate.TableError

/-!
# What can go wrong with mapping files
-/

namespace Deobfuscate.Mapping

/-- Why mapping files could not be read or written. -/
inductive Error
  | unreadable (path : Path) (problem : Problem)
  | malformed (error : TableError)
  | unwritable (error : CacheError)
  deriving DecidableEq, Repr

/-- The wording of what went wrong. -/
def Error.message : Error → String
  | .unreadable path problem =>
      s!"failed to read {path.text}: {problem.message}"
  | .malformed error => error.message
  | .unwritable error => s!"failed to write mappings: {error.message}"

def readText (tree : FileTree) (path : Path) : Except Error String :=
  (tree.readText path).mapError (Error.unreadable path)

end Deobfuscate.Mapping
