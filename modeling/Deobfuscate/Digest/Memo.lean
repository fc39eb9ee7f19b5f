import Deobfuscate.Digest.Sha256
import Deobfuscate.FileTree.Basic

/-!
# Remembered file hashes

A memo keeps the hashes of files by location.  A hash is used again as long as
the file has the time and the length it had when it was hashed.
-/

namespace Deobfuscate

/-- A file that belongs to the inputs of a digest cannot be hashed. -/
structure InputError where
  path : Path
  problem : Problem
  deriving DecidableEq, Repr

def InputError.message (error : InputError) : String :=
  s!"failed to read hash input {error.path.text}: {error.problem.message}"

/-- The hash of a file with the time and the length it had. -/
structure Stamp where
  modified : Nat
  length : Nat
  hash : Bytes
  deriving DecidableEq, Repr

/-- Hashes by location, and how often they were used. -/
structure Memo where
  stamps : List (Location × Stamp) := []
  hits : Nat := 0
  misses : Nat := 0
  deriving DecidableEq, Repr

structure HashedFile where
  location : Location
  content : Bytes
  modified : Nat
  deriving DecidableEq, Repr

def FileTree.hashedFile (tree : FileTree) (path : Path) :
    Except InputError HashedFile :=
  match tree.find path with
  | .error problem => .error ⟨path, problem⟩
  | .ok (_, .directory) => .error ⟨path, .other "not a regular file"⟩
  | .ok (location, .file content modified _) =>
      .ok ⟨location, content, modified⟩

namespace Memo

def known? (memo : Memo) (file : HashedFile) : Option Bytes :=
  match memo.stamps.lookup file.location with
  | some stamp =>
      if stamp.modified = file.modified ∧ stamp.length = file.content.length
      then some stamp.hash
      else none
  | none => none

def remember (memo : Memo) (file : HashedFile) (hash : Bytes) : Memo :=
  { memo with
    stamps := (file.location, ⟨file.modified, file.content.length, hash⟩) ::
      memo.stamps.filter fun entry => entry.1 != file.location
    misses := memo.misses + 1 }

/-- Forget all hashes, but not how often they were used. -/
def clear (memo : Memo) : Memo :=
  { memo with stamps := [] }

def hashOf (memo : Memo) (file : HashedFile) : Bytes × Memo :=
  match memo.known? file with
  | some hash => (hash, { memo with hits := memo.hits + 1 })
  | none =>
      let hash := Sha256.hash file.content
      (hash, memo.remember file hash)

def fileHash (tree : FileTree) (path : Path) :
    ExceptT InputError (StateM Memo) Bytes := do
  match tree.hashedFile path with
  | .error error => throw error
  | .ok file => modifyGet fun memo => memo.hashOf file

end Memo

end Deobfuscate
