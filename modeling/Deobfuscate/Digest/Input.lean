import Deobfuscate.Digest.Fingerprint
import Deobfuscate.Digest.Memo
import Deobfuscate.LittleEndian

/-!
# Digests of inputs

A digest is taken over a list of inputs.  Each input is first resolved against
the file tree: files turn into their hashes.  The resolved inputs are then
framed, each with a tag and with the length of what can vary in length, so that
no two lists of inputs run together into the same bytes.
-/

namespace Deobfuscate

/-- A declared input. -/
inductive HashInput
  | bytes (value : Bytes)
  | text (value : String)
  | int32 (value : Int32)
  | int64 (value : Int64)
  | bool (value : Bool)
  /-- A file, by content. -/
  | file (path : Path)
  /-- Files, by content; their order does not matter. -/
  | files (paths : List Path)
  /-- A directory, by the files below it. -/
  | directory (path : Path)
  /-- Something that is not there. -/
  | absent
  deriving DecidableEq, Repr

namespace HashInput

def optionalFile : Option Path → HashInput
  | some path => file path
  | none => absent

def optionalDirectory : Option Path → HashInput
  | some path => directory path
  | none => absent

end HashInput

/-- An input whose files have been hashed. -/
inductive ResolvedInput
  | bytes (value : Bytes)
  | text (value : String)
  | int32 (value : Int32)
  | int64 (value : Int64)
  | bool (value : Bool)
  | file (hash : Bytes)
  | files (hashes : List Bytes)
  /-- The hashes of files by their relative paths, in the order of these. -/
  | directory (hashes : List (String × Bytes))
  | absent
  deriving DecidableEq, Repr

def frameLength (length : Nat) : Bytes :=
  LittleEndian.bytes 8 length

def frameBytes (bytes : Bytes) : Bytes :=
  frameLength bytes.length ++ bytes

/-- What stands for something that is not there. -/
def absentMark : Bytes :=
  0xA5 :: Text.encode "retro:absent-input" ++ [0xA5]

def ResolvedInput.frame : ResolvedInput → Bytes
  | bytes value => 0x01 :: frameBytes value
  | text value => 0x02 :: frameBytes (Text.encode value)
  | int32 value => 0x03 :: LittleEndian.bytes 4 value.toUInt32.toNat
  | int64 value => 0x04 :: LittleEndian.bytes 8 value.toUInt64.toNat
  | bool value => [0x05, if value then 1 else 0]
  | file hash => 0x10 :: hash
  | files hashes => 0x11 :: frameLength hashes.length ++ hashes.flatten
  | directory hashes =>
      0x12 :: frameLength hashes.length ++
        hashes.flatMap fun entry => frameBytes (Text.encode entry.1) ++ entry.2
  | absent => 0x7F :: absentMark

def frameInputs (inputs : List ResolvedInput) : Bytes :=
  inputs.flatMap ResolvedInput.frame

abbrev HashAction (α : Type) := ExceptT InputError (StateM Memo) α

/-- The relative paths of the files below a directory, in the order of their
texts. -/
def FileTree.relativeFiles (tree : FileTree) (location : Location) :
    List String :=
  ((tree.filesBelow location).map fun file =>
    FileTree.relativeText file.1).mergeSort fun left right => left ≤ right

def HashInput.resolve (tree : FileTree) : HashInput → HashAction ResolvedInput
  | bytes value => return .bytes value
  | text value => return .text value
  | int32 value => return .int32 value
  | int64 value => return .int64 value
  | bool value => return .bool value
  | file path => return .file (← Memo.fileHash tree path)
  | files paths =>
      return .files (← (Path.sortDistinct paths).mapM (Memo.fileHash tree))
  | directory path => do
      match tree.find path with
      | .ok (location, .directory) =>
          let hashes ← (tree.relativeFiles location).mapM fun name =>
            return (name, ← Memo.fileHash tree (path.child name))
          return .directory hashes
      | _ => throw ⟨path, .notFound⟩
  | absent => return .absent

def resolveInputs (tree : FileTree) (inputs : List HashInput) :
    HashAction (List ResolvedInput) :=
  inputs.mapM (HashInput.resolve tree)

def digestStream (tree : FileTree) (inputs : List HashInput) :
    HashAction Bytes := do
  return frameInputs (← resolveInputs tree inputs)

def digestOf (tree : FileTree) (inputs : List HashInput) :
    HashAction Fingerprint := do
  return Fingerprint.ofBytes (← digestStream tree inputs)

def Fingerprint.ofFile (tree : FileTree) (path : Path) :
    Except InputError Fingerprint :=
  match tree.readBytes path with
  | .ok content => .ok (Fingerprint.ofBytes content)
  | .error problem => .error ⟨path, problem⟩

end Deobfuscate
