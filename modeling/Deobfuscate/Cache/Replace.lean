import Deobfuscate.Cache.Error
import Deobfuscate.FileTree.Temporary

/-!
# Replacing files

A file is replaced by renaming a complete one onto it, so that nobody ever sees
a part of it.
-/

namespace Deobfuscate.Cache

/-- The name under which the new content of a file is written first. -/
def temporaryPath (tree : FileTree) (directory : Path) (name : String) :
    Path :=
  tree.freshPath directory (name ++ ".tmp.") ""

def atomicWrite (path : Path) (content : Bytes) :
    FileAction CacheError Unit := do
  if path.parent.isNone then throw (.files (.other "path has no parent"))
  let directory := path.directory
  FileAction.advance (·.createDirectories directory) .files
  match path.fileName with
  | none => throw (.files (.other "destination path has no file name"))
  | some name =>
      let temporary ← FileAction.look (temporaryPath · directory name)
      FileAction.change (·.writeBytes temporary content) .files
      FileAction.finallyDo
        (FileAction.change (·.rename temporary path) .files)
        (·.discard temporary)

def removeFileIfThere (tree : FileTree) (path : Path) : Bool × FileTree :=
  match tree.removeFile path with
  | .ok changed => (true, changed)
  | .error .notFound => (true, tree)
  | .error _ => (false, tree)

end Deobfuscate.Cache
