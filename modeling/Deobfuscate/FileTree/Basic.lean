import Deobfuscate.FileTree.Path
import Deobfuscate.FileTree.Problem
import Deobfuscate.Text.Bytes

/-!
# File trees

A file tree binds locations, given by the names from the root on, to files and
directories.  Every write takes a fresh tick of the tree's clock; a file knows
the tick of its last write and the tick at which it was made, which tells it
apart from any other file that has stood at the same place.  Locks are held on
files, not on places.

Paths are resolved one piece at a time: every piece but the last must lead to
a directory.  Names and whole paths are limited in length.
-/

namespace Deobfuscate

/-- A place in a file tree: the names from the root on. -/
abbrev Location := List String

/-- What stands at a location. -/
inductive Node
  | directory
  /-- The content of a file, the time of its last write and its identity. -/
  | file (content : Bytes) (modified : Nat) (identity : Nat)
  deriving DecidableEq, Repr

/-- How a lock is held. -/
inductive LockMode
  /-- Together with other shared locks. -/
  | shared
  /-- Alone. -/
  | exclusive
  deriving DecidableEq, Repr

/-- A lock on the file with a given identity. -/
structure HeldLock where
  file : Nat
  mode : LockMode
  /-- Tells the lock apart from all others. -/
  holder : Nat
  deriving DecidableEq, Repr

/-- Files and directories by location, and the locks held on files.  The root is
always a directory. -/
structure FileTree where
  nodes : List (Location × Node) := []
  locks : List HeldLock := []
  clock : Nat := 0
  deriving DecidableEq, Repr

namespace FileTree

def node? (tree : FileTree) (location : Location) : Option Node :=
  if location = [] then some .directory else tree.nodes.lookup location

/-- The greatest number of bytes of a name. -/
def maxNameSize : Nat := 255

/-- The number of bytes from which on a path is too long. -/
def pathSizeLimit : Nat := 4096

def checkName (name : String) : Except Problem Unit :=
  if maxNameSize < name.utf8ByteSize then .error .invalidFilename else .ok ()

def checkPath (path : Path) : Except Problem Unit :=
  if path.text.toList.contains '\x00' then .error .invalidInput
  else if path.text = "" then .error .notFound
  else if pathSizeLimit ≤ path.text.utf8ByteSize then .error .invalidFilename
  else .ok ()

/-- Follow the pieces of a path from a directory.  The last piece need not
exist; pieces after a name ask for a directory. -/
def follow (tree : FileTree) :
    Location → List String → Except Problem Location
  | location, [] => .ok location
  | location, piece :: rest =>
      if piece = "" ∨ piece = "." then follow tree location rest
      else if piece = ".." then follow tree location.dropLast rest
      else do
        checkName piece
        let next := location ++ [piece]
        if rest = [] then return next
        else
          match tree.node? next with
          | none => .error .notFound
          | some (.file _ _ _) => .error .notADirectory
          | some .directory => follow tree next rest

def locate (tree : FileTree) (path : Path) : Except Problem Location := do
  checkPath path
  tree.follow [] path.pieces

def locateStep (tree : FileTree) (path : Path) :
    Except Problem (Location × Path.LastStep) := do
  checkPath path
  let (before, step) := path.lastStep
  return (← tree.follow [] (before ++ [""]), step)

/-- The location of a file that is opened for writing, which need not exist. -/
def locateFile (tree : FileTree) (path : Path) : Except Problem Location := do
  match ← tree.locateStep path with
  | (directory, .name name slashed) =>
      if slashed then .error .isADirectory
      else do
        checkName name
        return directory ++ [name]
  | _ => .error .isADirectory

def find (tree : FileTree) (path : Path) :
    Except Problem (Location × Node) := do
  let location ← tree.locate path
  match tree.node? location with
  | some node => return (location, node)
  | none => .error .notFound

/-- Whether a path leads to something. -/
def exists? (tree : FileTree) (path : Path) : Bool :=
  (tree.find path).toBool

def isDirectory (tree : FileTree) (path : Path) : Bool :=
  match tree.find path with
  | .ok (_, .directory) => true
  | _ => false

def isFile (tree : FileTree) (path : Path) : Bool :=
  match tree.find path with
  | .ok (_, .file _ _ _) => true
  | _ => false

def readBytes (tree : FileTree) (path : Path) : Except Problem Bytes := do
  match ← tree.find path with
  | (_, .file content _ _) => return content
  | (_, .directory) => .error .isADirectory

def readText (tree : FileTree) (path : Path) : Except Problem String := do
  match Text.decode (← tree.readBytes path) with
  | some text => return text
  | none => .error .invalidData

def setNode (tree : FileTree) (location : Location) (node : Node) :
    FileTree :=
  { tree with
    nodes := (location, node) ::
      tree.nodes.filter fun entry => entry.1 != location }

def removeAt (tree : FileTree) (location : Location) : FileTree :=
  { tree with
    nodes := tree.nodes.filter fun entry => !location.isPrefixOf entry.1 }

def tick (tree : FileTree) : FileTree :=
  { tree with clock := tree.clock + 1 }

def writeAt (tree : FileTree) (location : Location) (content : Bytes)
    (time : Nat) : Except Problem FileTree :=
  match tree.node? location with
  | some .directory => .error .isADirectory
  | some (.file _ _ identity) =>
      .ok (tree.setNode location (.file content time identity)).tick
  | none =>
      .ok (tree.setNode location (.file content time tree.clock)).tick

def writeBytes (tree : FileTree) (path : Path) (content : Bytes) :
    Except Problem FileTree := do
  tree.writeAt (← tree.locateFile path) content tree.clock

/-- Make a directory where there is nothing.  Its path may end with
separators. -/
def createDirectory (tree : FileTree) (path : Path) :
    Except Problem FileTree := do
  match ← tree.locateStep path with
  | (directory, .name name _) =>
      checkName name
      let location := directory ++ [name]
      match tree.node? location with
      | some _ => .error .alreadyExists
      | none => .ok (tree.setNode location .directory)
  | _ => .error .alreadyExists

/-- What a change of several steps gives: the problem that stopped it, if any,
and the tree with the steps made up to there. -/
abbrev Outcome := Option Problem × FileTree

/-- Make a directory, after those above it, which are given nearest first. -/
def createChain (tree : FileTree) : List Path → Outcome
  | [] => (some (.other "failed to create whole tree"), tree)
  | path :: above =>
      if path.text = "" then (none, tree)
      else
        let settle (tree : FileTree) (problem : Problem) : Outcome :=
          (if tree.isDirectory path then none else some problem, tree)
        match tree.createDirectory path with
        | .ok made => (none, made)
        | .error .notFound =>
            match createChain tree above with
            | (some problem, tree) => (some problem, tree)
            | (none, tree) =>
                match tree.createDirectory path with
                | .ok made => (none, made)
                | .error problem => settle tree problem
        | .error problem => settle tree problem

/-- Make a directory and those above it as far as they are missing. -/
def createDirectories (tree : FileTree) (path : Path) : Outcome :=
  tree.createChain path.ancestors

/-- Write a file at a given time, after making the directories above it; what
cannot be made or written is left out. -/
def place (tree : FileTree) (path : Path) (content : Bytes) (time : Nat) :
    FileTree :=
  let tree := (tree.createDirectories path.directory).2
  match do tree.writeAt (← tree.locateFile path) content time with
  | .ok written => written
  | .error _ => tree

def removeFile (tree : FileTree) (path : Path) :
    Except Problem FileTree := do
  match ← tree.find path with
  | (_, .directory) => .error .isADirectory
  | (location, .file _ _ _) => return tree.removeAt location

/-- Remove everything below a location. -/
def emptyAt (tree : FileTree) (location : Location) : FileTree :=
  { tree with
    nodes := tree.nodes.filter fun entry =>
      entry.1 == location || !location.isPrefixOf entry.1 }

def removeEmptyDirectory (tree : FileTree) (path : Path) :
    Except Problem FileTree := do
  match ← tree.locateStep path with
  | (above, .name name _) => return tree.removeAt (above ++ [name])
  | (_, .current) => .error .invalidInput
  | (_, .parent) => .error .directoryNotEmpty
  | (_, .root) => .error .resourceBusy

/-- Remove a directory with everything in it: first what is in it, then the
directory itself.  If its path leads through what was in it, it stays. -/
def removeDirectories (tree : FileTree) (path : Path) : Outcome :=
  match tree.find path with
  | .error problem => (some problem, tree)
  | .ok (_, .file _ _ _) => (some .notADirectory, tree)
  | .ok (location, .directory) =>
      let emptied := tree.emptyAt location
      match emptied.removeEmptyDirectory path with
      | .ok removed => (none, removed)
      | .error .notFound => (none, emptied)
      | .error problem => (some problem, emptied)

/-- Whether nothing stands below a location. -/
def isEmptyAt (tree : FileTree) (location : Location) : Bool :=
  tree.nodes.all fun entry =>
    entry.1 == location || !location.isPrefixOf entry.1

def moveAt (tree : FileTree) (source target : Location) : FileTree :=
  let moved := tree.nodes.filter fun entry => source.isPrefixOf entry.1
  let kept := ((tree.removeAt source).removeAt target).nodes
  { tree with
    nodes := moved.map (fun entry =>
      (target ++ entry.1.drop source.length, entry.2)) ++ kept }

/-- Rename what stands at a location; `slashed` says that one of the two paths
asks for a directory. -/
def renameAt (tree : FileTree) (old new : Location) (slashed : Bool) :
    Except Problem FileTree :=
  match tree.node? old with
  | none => .error .notFound
  | some node =>
      if slashed && node != .directory then .error .notADirectory
      else if old = new then .ok tree
      else if old.isPrefixOf new then .error .invalidInput
      else if new.isPrefixOf old then .error .directoryNotEmpty
      else
        match node, tree.node? new with
        | .file _ _ _, some .directory => .error .isADirectory
        | .directory, some (.file _ _ _) => .error .notADirectory
        | .directory, some .directory =>
            if tree.isEmptyAt new then .ok (tree.moveAt old new)
            else .error .directoryNotEmpty
        | _, _ => .ok (tree.moveAt old new)

/-- Rename a file or directory; both are given by their names.  A file replaces
a file; a directory replaces only an empty directory.  Nothing moves below
itself or onto a directory it lies in. -/
def rename (tree : FileTree) (source target : Path) :
    Except Problem FileTree := do
  checkPath source
  checkPath target
  match ← tree.locateStep source, ← tree.locateStep target with
  | (above, .name old oldSlashed), (below, .name new newSlashed) =>
      checkName old
      if (tree.node? (above ++ [old])).isNone then .error .notFound
      else
        checkName new
        tree.renameAt (above ++ [old]) (below ++ [new])
          (oldSlashed || newSlashed)
  | _, _ => .error .resourceBusy

/-! ## Walking -/

def inNameOrder : Location → Location → Bool
  | [], _ => true
  | _ :: _, [] => false
  | left :: lefts, right :: rights =>
      if left = right then inNameOrder lefts rights else left < right

def fileBelow (location : Location) (entry : Location × Node) :
    Option (Location × Bytes) :=
  match entry.2 with
  | .file content _ _ =>
      if location.isPrefixOf entry.1 then
        some (entry.1.drop location.length, content)
      else none
  | .directory => none

/-- The locations of the files below a location, relative to it, in the order in
which a walk meets them: that of the entries of the tree, which says nothing. -/
def filesBelow (tree : FileTree) (location : Location) :
    List (Location × Bytes) :=
  tree.nodes.filterMap (fileBelow location)

def sortedFilesBelow (tree : FileTree) (location : Location) :
    List (Location × Bytes) :=
  (tree.filesBelow location).mergeSort fun left right =>
    inNameOrder left.1 right.1

def relativeText (location : Location) : String :=
  "/".intercalate location

/-- The files below a location and the directories without content, the latter
with a slash, in the order of their texts. -/
def listing (tree : FileTree) (location : Location) : List String :=
  let found := tree.nodes.filterMap fun entry =>
    if location.isPrefixOf entry.1 && entry.1 != location then
      let text := relativeText (entry.1.drop location.length)
      match entry.2 with
      | .file _ _ _ => some text
      | .directory =>
          if tree.isEmptyAt entry.1 then some (text ++ "/") else none
    else none
  found.mergeSort fun left right => left ≤ right

end FileTree

end Deobfuscate
