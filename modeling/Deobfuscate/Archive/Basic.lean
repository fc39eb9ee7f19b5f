import Deobfuscate.Archive.Error
import Deobfuscate.Archive.Zip
import Deobfuscate.Dict
import Deobfuscate.FileTree.Action

/-!
# Archives

An archive is a zip file or a directory, seen as a flat set of named entries.
A zip file can be extracted into a directory.
-/

namespace Deobfuscate.Archive

def openZip (tree : FileTree) (archive : Path) :
    Except ArchiveError (List ZipEntry) :=
  match tree.find archive with
  | .error _ => .error (.cannotOpen archive)
  | .ok (_, .directory) => .error (.notZip archive)
  | .ok (_, .file content _ _) =>
      match readZip content with
      | some entries => .ok entries
      | none => .error (.notZip archive)

def readFromDirectory (tree : FileTree) (archive : Path) (name : String) :
    Option Bytes :=
  match tree.find (archive.child name) with
  | .ok (_, .file content _ _) => some content
  | _ => none

def readEntryData (archive : Path) (entry : ZipEntry) :
    Except ArchiveError Bytes :=
  match entry.content with
  | (bytes, true) => .ok bytes
  | (_, false) => .error (.unreadableEntry entry.name archive)

def read (tree : FileTree) (archive : Path) (name : String) :
    Except ArchiveError (Option Bytes) :=
  if tree.isDirectory archive then
    .ok (readFromDirectory tree archive name)
  else do
    let entries ← openZip tree archive
    match entries.find? fun entry => entry.name == name with
    | none => return none
    | some entry =>
        if entry.isReadable then return some (← readEntryData archive entry)
        else .error (.unsupportedEntry name archive)

def readBelow (tree : FileTree) (archive : Path) (below : Location) :
    Except ArchiveError Bytes :=
  let path := archive.child (FileTree.relativeText below)
  (tree.readBytes path).mapError fun _ => .unreadableFile path

def collectFiles (tree : FileTree) (archive : Path) :
    List Location → Dict Bytes → Except ArchiveError (Dict Bytes)
  | [], entries => .ok entries
  | below :: rest, entries => do
      let bytes ← readBelow tree archive below
      collectFiles tree archive rest
        (entries.insert (FileTree.relativeText below) bytes)

/-- Add the file entries of a zip file, of which the first has a given index,
to others. -/
def collectEntries (archive : Path) :
    Nat → List ZipEntry → Dict Bytes → Except ArchiveError (Dict Bytes)
  | _, [], entries => .ok entries
  | index, entry :: rest, entries =>
      if !entry.isReadable then .error (.badEntry index archive)
      else if entry.isDirectory then
        collectEntries archive (index + 1) rest entries
      else do
        let bytes ← readEntryData archive entry
        collectEntries archive (index + 1) rest
          (entries.insert entry.name bytes)

def entries (tree : FileTree) (archive : Path) :
    Except ArchiveError (Dict Bytes) :=
  match tree.find archive with
  | .ok (location, .directory) =>
      collectFiles tree archive ((tree.filesBelow location).map Prod.fst)
        .empty
  | _ => do collectEntries archive 0 (← openZip tree archive) .empty

/-- Whether components, starting at some depth, stay below the place they start
from. -/
def staysInside : Nat → List Component → Bool
  | _, [] => true
  | depth, component :: rest =>
      match component with
      | .root => false
      | .current => staysInside depth rest
      | .name _ => staysInside (depth + 1) rest
      | .parent => 0 < depth && staysInside (depth - 1) rest

/-- Whether an entry may be extracted. -/
def isEnclosed (name : String) : Bool :=
  !name.toList.contains '\x00' && staysInside 0 (Path.mk name).components

def extractFile (entry : ZipEntry) (target : Path) :
    FileAction ArchiveError Unit := do
  match target.parent with
  | some parent =>
      FileAction.advance (·.createDirectories parent) fun _ =>
        .cannotCreate parent
  | none => pure ()
  let (bytes, complete) := entry.content
  FileAction.change (·.writeBytes target bytes) fun _ => .cannotCreate target
  if !complete then throw (.cannotExtract target)

/-- Extract entries, of which the first has a given index, below a directory:
the number of files written. -/
def extractEntries (archive destination : Path) :
    Nat → List ZipEntry → FileAction ArchiveError Nat
  | _, [] => return 0
  | index, entry :: rest => do
      if !entry.isReadable then throw (.badEntry index archive)
      else if !isEnclosed entry.name then throw (.escapes entry.name archive)
      else
        let target := destination.child entry.name
        if entry.isDirectory then
          FileAction.advance (·.createDirectories target) fun _ =>
            .cannotCreate target
          extractEntries archive destination (index + 1) rest
        else
          extractFile entry target
          return (← extractEntries archive destination (index + 1) rest) + 1

/-- Extract a zip file below a directory.  Entries that lead out of it are
refused. -/
def extract (archive destination : Path) : FileAction ArchiveError Nat := do
  let entries ← FileAction.consult fun tree => openZip tree archive
  extractEntries archive destination 0 entries

end Deobfuscate.Archive
