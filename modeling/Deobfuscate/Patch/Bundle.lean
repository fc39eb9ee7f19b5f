import Deobfuscate.Archive.Basic
import Deobfuscate.Patch.Parser
import Deobfuscate.Text.Decimal

/-!
# Bundles of patch files

A bundle is a directory, an archive or a single file.  Patch files that belong
together have the same base name, followed by a number that orders them.
-/

namespace Deobfuscate.Patch

open Deobfuscate.Text

structure PatchFile where
  /-- The path below the bundle, or the whole path of a single file. -/
  name : String
  bundle : Path
  text : String
  deriving DecidableEq, Repr

/-- Why a bundle could not be loaded. -/
inductive BundleError
  | unreadable (path : Path) (problem : Problem)
  | badArchive (path : Path) (error : ArchiveError)
  | notText (path : Path) (name : String)
  deriving DecidableEq, Repr

/-- The wording of what is wrong with an archive. -/
def BundleError.reason : BundleError → String
  | .unreadable _ problem => problem.message
  | .badArchive _ error => error.message
  | .notText _ name => s!"{name} is not valid UTF-8"

/-- The wording of what went wrong. -/
def BundleError.message : BundleError → String
  | .unreadable path problem =>
      s!"failed to read {path.text}: {problem.message}"
  | .badArchive path error =>
      s!"failed to read patch bundle {path.text}: {error.message}"
  | .notText path name =>
      s!"failed to read patch bundle {path.text}: {name} is not valid UTF-8"

def isArchivePath (path : Path) : Bool :=
  path.extension == some "zip" || path.extension == some "jar"

def directoryFiles (bundle : Path) :
    List (Location × Bytes) → Except BundleError (List PatchFile)
  | [] => .ok []
  | (location, content) :: rest => do
      let written := FileTree.relativeText location
      match decode content with
      | none => .error (.unreadable (bundle.child written) .invalidData)
      | some text =>
          let name := String.ofList
            (replaceAll ['\\'] ['/'] written.toList)
          return ⟨name, bundle, text⟩ :: (← directoryFiles bundle rest)

def archiveFiles (bundle : Path) :
    List (String × Bytes) → Except BundleError (List PatchFile)
  | [] => .ok []
  | (name, content) :: rest =>
      match decode content with
      | none => .error (.notText bundle name)
      | some text => do
          return ⟨name, bundle, text⟩ :: (← archiveFiles bundle rest)

/-- The patch files of a bundle in the order of their names. -/
def loadBundle (tree : FileTree) (bundle : Path) :
    Except BundleError (List PatchFile) := do
  let files ←
    match tree.find bundle with
    | .ok (location, .directory) =>
        directoryFiles bundle (tree.sortedFilesBelow location)
    | _ =>
        if isArchivePath bundle then do
          let entries ← (Archive.entries tree bundle).mapError
            (BundleError.badArchive bundle)
          archiveFiles bundle entries.toList
        else do
          let text ← (tree.readText bundle).mapError
            (BundleError.unreadable bundle)
          return [⟨bundle.text, bundle, text⟩]
  return files.mergeSort fun left right => left.name ≤ right.name

/-- The ending that marks a patch file, perhaps followed by a number. -/
def patchEnding : List Char := ".patch".toList

def lastSegment (name : String) : List Char :=
  match splitLast '/' name.toList with
  | some (_, segment) => segment
  | none => name.toList

/-- The base name and the rank of a patch file.  A rank that cannot be read is
zero. -/
def baseAndRank (name : String) : Option (String × Nat) := do
  let (before, after) ← findLastPiece patchEnding (lastSegment name)
  return (String.ofList (before ++ patchEnding),
    (readBounded halfWordBound after).getD 0)

/-- Whether a file comes before another one of its group, or is as early. -/
def ranksBefore (left right : Nat × PatchFile) : Bool :=
  left.1 < right.1 || (left.1 = right.1 && left.2.name ≤ right.2.name)

def addToGroup (groups : Dict (List (Nat × PatchFile))) (file : PatchFile) :
    Dict (List (Nat × PatchFile)) :=
  match baseAndRank file.name with
  | none => groups
  | some (base, rank) =>
      groups.insert base ((groups.get? base).getD [] ++ [(rank, file)])

/-- Group patch files by base name, each group in the order of the ranks.  Other
files are dropped. -/
def groupByBase (files : List PatchFile) : List (String × List PatchFile) :=
  (files.foldl addToGroup .empty).toList.map fun group =>
    (group.1, (group.2.mergeSort ranksBefore).map Prod.snd)

end Deobfuscate.Patch
