import Deobfuscate.Shell.Session

/-!
# What a host has

Besides the files of the tree a host has some directories, devices and
programs.
-/

namespace Deobfuscate.Shell

def programDirectories : List String :=
  ["/usr/bin", "/bin"]

def programNames : List String :=
  ["cat", "cp", "echo", "false", "head", "pwd", "sh", "sleep", "tr",
    "true"]

def hostDirectories : List String :=
  ["/", "/bin", "/dev", "/etc", "/home", "/proc", "/root", "/sys", "/tmp",
    "/usr", "/usr/bin", "/usr/local", "/usr/local/bin", "/var", "/var/tmp"]

def devices : List String :=
  ["/dev/null", "/dev/zero"]

/-- The variables with which tools start, before those of their commands. -/
def hostEnvironment : List (String × String) :=
  [("HOME", "/root"), ("PATH", "/usr/local/bin:/usr/bin:/bin")]

def programAt? (path : String) : Option String :=
  programDirectories.findSome? fun directory =>
    programNames.find? fun name => directory ++ "/" ++ name == path

/-- What stands at a path. -/
inductive FileKind
  | directory
  | file (size modified identity : Nat)
  | program
  | device
  deriving DecidableEq

def FileKind.ofNode : Node → FileKind
  | .directory => .directory
  | .file content modified identity => .file content.length modified identity

def withoutSlashes (path : String) : String :=
  let kept := path.toList.reverse.dropWhile (· == '/')
  if kept.isEmpty then "/" else String.ofList kept.reverse

def World.kindAt? (world : World) (id : ProcessId) (path : String) :
    Option FileKind :=
  let place := world.placeOf id path
  let text := withoutSlashes (ofText place.text)
  match world.tree.find place with
  | .ok (_, node) => some (.ofNode node)
  | .error _ =>
      if path == "" then none
      else if hostDirectories.contains text then some .directory
      else if devices.contains text then some .device
      else if (programAt? text).isSome then some .program
      else
        let endpoint? := do
          let number ← Process.descriptorOf? text
          let process ← world.process? id
          process.descriptors.lookup number
        endpoint?.map fun _ => .device

def fileKind? (path : String) : Process (Option FileKind) :=
  Process.view fun id world => world.kindAt? id path

def isDirectory (path : String) : Process Bool :=
  return (← fileKind? path) == some .directory

/-- The wording of why a program cannot be started. -/
def launchMessage : Problem → String
  | .notFound | .notADirectory => "not found"
  | .invalidFilename => "File name too long"
  | _ => "Permission denied"

/-- The status of a command whose program cannot be started. -/
def launchStatus : Problem → Nat
  | .notFound | .notADirectory | .invalidFilename => 127
  | _ => 126

def isPath (name : String) : Bool :=
  name.toList.contains '/'

def searchPath (value : String) : List String :=
  ((Text.splitOn ':' value.toList).map String.ofList).map fun directory =>
    if directory == "" then "." else directory

def World.programFrom (world : World) (id : ProcessId) (path : String) :
    Except Problem String :=
  let place := world.placeOf id path
  match world.kindAt? id path with
  | some .program => .ok ((programAt? (ofText place.text)).getD "")
  | some _ => .error .permissionDenied
  | none =>
      match world.tree.find place with
      | .error problem => .error problem
      | .ok _ => .error .notFound

/-- The program of a name in the directories of a search path, and the path it
stands at.  A file that is none is only a reason to complain. -/
def World.searchProgram (world : World) (id : ProcessId) (name : String) :
    List String → Problem → Except Problem (String × String)
  | [], problem => .error problem
  | directory :: rest, problem =>
      let path := directory ++ "/" ++ name
      match world.programFrom id path with
      | .ok program => .ok (program, path)
      | .error .notFound | .error .notADirectory =>
          world.searchProgram id name rest problem
      | .error other => world.searchProgram id name rest other

def World.findProgram (world : World) (id : ProcessId) (name path : String) :
    Except Problem (String × String) :=
  if isPath name then
    (world.programFrom id name).map fun program => (program, name)
  else if FileTree.maxNameSize < name.length then .error .invalidFilename
  else world.searchProgram id name (searchPath path) .notFound

def findProgram (name path : String) :
    Process (Except Problem (String × String)) :=
  Process.view fun id world => world.findProgram id name path

end Deobfuscate.Shell
