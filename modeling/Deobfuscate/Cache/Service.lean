import Deobfuscate.Archive.Basic
import Deobfuscate.Cache.Lock
import Deobfuscate.FileTree.Temporary

/-!
# The cache

The cache keeps directories by namespace and key.  An entry is filled once, in
a directory beside its place, and becomes visible by a single renaming; from
then on it does not change.  Checking for an entry takes a shared lock of the
cache, filling one an exclusive lock.
-/

namespace Deobfuscate

/-- A cache below a directory. -/
structure Cache where
  root : Path
  deriving DecidableEq, Repr

namespace Cache

def openAt (root : Path) : FileAction CacheError Cache := do
  FileAction.advance (·.createDirectories root) .files
  return ⟨root⟩

def lockName : String := "retro.lock"

def lockPath (cache : Cache) : Path :=
  cache.root.child lockName

def isControl (char : Char) : Bool :=
  char.toNat < 0x20 || (0x7F ≤ char.toNat && char.toNat < 0xA0)

/-- Whether a character may not stand in a name. -/
def isForbidden (char : Char) : Bool :=
  char == '/' || char == '\\' || char == ':' || isControl char

/-- Whether a text is a name of a namespace or a key. -/
def isValidName (name : String) : Bool :=
  match name.toList with
  | [] => false
  | first :: rest =>
      first != '.' && !isForbidden first && !rest.any isForbidden

/-- The place of an entry, filled or not. -/
def entryPath (cache : Cache) (space key : String) :
    Except CacheError Path :=
  if !isValidName space then .error (.invalidName space)
  else if !isValidName key then .error (.invalidName key)
  else .ok ((cache.root.child space).child key)

variable {ε : Type}

/-- Fill a fresh directory and give it the name of an entry.  If that fails,
the directory is discarded. -/
def publish (parent target : Path) (wrap : CacheError → ε)
    (populate : Path → FileAction ε Unit) : FileAction ε Unit := do
  FileAction.advance (·.createDirectories parent) (wrap ∘ .files)
  let staging ← FileTree.makeTemporary parent ".retro-dl-" (wrap ∘ .files)
  FileAction.finallyDo
    (do
      populate staging
      FileAction.change (·.rename staging target) (wrap ∘ .files))
    (·.discard staging)

/-- The directory of an entry, which is filled first if it is missing. -/
def accessEntry (cache : Cache) (space key : String) (wrap : CacheError → ε)
    (populate : Path → FileAction ε Unit) : FileAction ε Path := do
  match cache.entryPath space key with
  | .error error => throw (wrap error)
  | .ok target =>
      let present : FileAction ε Bool :=
        FileAction.look (·.isDirectory target)
      if ← withLock cache.lockPath .shared wrap present then return target
      withLock cache.lockPath .exclusive wrap do
        if ← present then return target
        publish (cache.root.child space) target wrap populate
        return target

def extractAll (directory : Path) : List Path → FileAction CacheError Unit
  | [] => return ()
  | archive :: rest => do
      let _ ← FileAction.mapError (CacheError.archive archive)
        (Archive.extract archive directory)
      extractAll directory rest

/-- The directory of an entry that holds what archives hold, a later one going
first; `prepare` may change it before it is published. -/
def accessExtracted (cache : Cache) (space key : String)
    (archives : List Path) (prepare : Path → FileAction CacheError Unit) :
    FileAction CacheError Path :=
  cache.accessEntry space key id fun directory => do
    extractAll directory archives
    prepare directory

end Cache

end Deobfuscate
