import Deobfuscate.Archive.Basic
import Deobfuscate.FileTree.Temporary
import Deobfuscate.Text.Search

/-!
# Artifacts

An artifact is an archive in memory: source texts and other resources by name,
each name in one of the two.  It is saved as a zip file with its entries in a
fixed order and a fixed date.
-/

namespace Deobfuscate

/-- Sources and resources by name. -/
structure Artifact where
  resources : Dict Bytes := .empty
  sources : Dict String := .empty

namespace Artifact

def sourceEnding : String := ".java"

def isSourceName (name : String) : Bool :=
  Text.endsWith sourceEnding.toList name.toList

/-- The start of the names of entries that describe the archive itself. -/
def descriptionStart : String := "META-INF/"

/-- Whether an entry describes the archive it stands in, so that it does not
fit another one. -/
def isDescription (name : String) : Bool :=
  Text.startsWith descriptionStart.toList name.toList

def insertSource (artifact : Artifact) (name text : String) : Artifact :=
  ⟨artifact.resources.erase name, artifact.sources.insert name text⟩

def insertResource (artifact : Artifact) (name : String) (bytes : Bytes) :
    Artifact :=
  ⟨artifact.resources.insert name bytes, artifact.sources.erase name⟩

/-- Add an entry as a source or a resource, as its name says. -/
def insert (artifact : Artifact) (name : String) (bytes : Bytes) :
    Except ArchiveError Artifact :=
  if isSourceName name then
    match Text.decode bytes with
    | some text => .ok (artifact.insertSource name text)
    | none => .error (.notText name)
  else .ok (artifact.insertResource name bytes)

def contains (artifact : Artifact) (name : String) : Bool :=
  artifact.sources.contains name || artifact.resources.contains name

def remove (artifact : Artifact) (name : String) : Artifact :=
  ⟨artifact.resources.erase name, artifact.sources.erase name⟩

/-- The number of entries. -/
def size (artifact : Artifact) : Nat :=
  artifact.sources.size + artifact.resources.size

/-- Whether there are no entries. -/
def isEmpty (artifact : Artifact) : Bool :=
  artifact.sources.isEmpty && artifact.resources.isEmpty

def insertEntries (archive : Path) :
    Artifact → List (String × Bytes) → Except ArchiveError Artifact
  | artifact, [] => .ok artifact
  | artifact, (name, bytes) :: rest =>
      if isDescription name then insertEntries archive artifact rest
      else
        match artifact.insert name bytes with
        | .ok artifact => insertEntries archive artifact rest
        | .error _ => .error (.cannotLoad name archive)

def load (tree : FileTree) (path : Path) : Except ArchiveError Artifact := do
  let entries ← Archive.entries tree path
  insertEntries path {} entries.toList

def savedEntries (artifact : Artifact) : List (String × Bytes) :=
  artifact.resources.toList ++
    artifact.sources.toList.map fun entry => (entry.1, Text.encode entry.2)

/-- Whether a name is that of a source and of a resource. -/
def isAmbiguous (artifact : Artifact) : Bool :=
  artifact.sources.keys.any artifact.resources.contains

/-- Save an artifact.  It is written beside its place first, so that the place
holds either the whole artifact or what it held before.  No name is written
twice. -/
def save (artifact : Artifact) (path : Path) :
    FileAction ArchiveError Unit := do
  let directory := path.directory
  FileAction.advance (·.createDirectories directory) fun _ =>
    .cannotCreate directory
  let temporary ← FileAction.look fun tree =>
    tree.freshPath directory ".artifact-" ".tmp"
  FileAction.change
    (·.writeBytes temporary (Archive.writeZip artifact.savedEntries))
    fun _ => .cannotCreateTemporary directory
  FileAction.onError
    (do
      if artifact.isAmbiguous then throw (.cannotWrite path)
      FileAction.change (·.rename temporary path) fun _ => .cannotMove path)
    (·.discard temporary)

end Artifact

end Deobfuscate
