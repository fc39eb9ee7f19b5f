import Deobfuscate.Shell.Builtin
import Deobfuscate.Shell.Redirection
import Deobfuscate.Shell.Utility

/-!
# What a command names

The first field of a simple command names a function, a command of the shell or
a program.  Programs get the exported variables, and a shell starts with them.
-/

namespace Deobfuscate.Shell

/-- What a simple command runs. -/
inductive Target
  | nothing
  | function (body : Command)
  | builtin (name : String)
  | program

/-- The arguments of `command` after its options, if it runs something. -/
def commandOperands? : List String → Option (List String)
  | "-p" :: rest => commandOperands? rest
  | "--" :: rest => if rest.isEmpty then none else some rest
  | [] => none
  | first :: rest =>
      if first.startsWith "-" && first.length != 1 then none
      else some (first :: rest)

/-- What some fields run, and the fields that name it and its arguments.
Functions do not count after `command`. -/
def findTarget (session : Session) :
    Nat → Bool → List String → Target × List String
  | 0, _, fields => (.nothing, fields)
  | _, _, [] => (.nothing, [])
  | fuel + 1, plain, name :: arguments =>
      match if plain then session.functions.get? name else none with
      | some body => (.function body, name :: arguments)
      | none =>
          match name, commandOperands? arguments with
          | "command", some operands => findTarget session fuel false operands
          | _, _ =>
              if builtinNames.contains name then
                (.builtin name, name :: arguments)
              else (.program, name :: arguments)

def Target.isStrict (fields : List String) : Target → Bool
  | .builtin name =>
      strictBuiltins.contains name && fields.head? != some "command"
  | _ => false

/-- Whether assignments before what is run last only as long as it runs. -/
def Target.isFramed (fields : List String) : Target → Bool
  | .nothing => false
  | target => !target.isStrict fields

/-- Whether what is run lets its redirections stay. -/
def Target.keepsRoutes : Target → Bool
  | .builtin "exec" => true
  | _ => false

/-- The commands whose arguments are like assignments. -/
def assigningBuiltins : List String :=
  ["export", "local", "readonly"]

def expandArguments (output : Command → ShellAction String) (fuel : Nat) :
    List String → List Word → ShellAction (List String)
  | fields, [] => return fields
  | fields, word :: rest => do
      let name? := (fields.dropWhile fun field =>
        field == "command" || field == "-p").head?
      let more ←
        match name?.any assigningBuiltins.contains, assignment? word with
        | true, some (name, value) => do
            pure [name ++ "=" ++ (← expandValue output fuel value)]
        | _, _ => expandFields output fuel word
      expandArguments output fuel (fields ++ more) rest

/-- How a program is started. -/
structure Launch where
  program : String
  /-- The name by which the program was called. -/
  name : String
  arguments : List String
  environment : List (String × String)

def initialSession (launch : Launch) (process : ProcessState) : Session :=
  let make (exported : Bool) (bindings : List (String × String)) :
      List (String × Variable) :=
    bindings.map fun (name, value) => (name, { value := some value, exported })
  let usual := make false [("PS1", "# "), ("PS2", "> "), ("PS4", "+ ")]
  let inherited := make true (launch.environment.filter fun binding =>
    isName binding.1)
  let own := make false [("IFS", " \t\n"), ("OPTIND", "1"),
    ("PPID", toString process.parent)]
  let place := make true [("PWD", ofText process.directory.text)]
  { name := launch.name
    bindings := .ofList (usual ++ inherited ++ own ++ place)
    id := process.id
    line := 0 }

def findScript (name : String) : ShellAction String := do
  if isPath name then return name
  let path := (← ShellAction.value? "PATH").getD ""
  let candidates := (searchPath path).map fun directory => below directory name
  let found ← candidates.findM? fun candidate => ShellAction.lift do
    return match ← fileKind? candidate with
      | some (.file _ _ _) => true
      | _ => false
  match found with
  | some candidate => return candidate
  | none => ShellAction.fail s!"{name}: not found"

/-- The text of a file of commands; there is none in a directory. -/
def readScript (path : String) : ShellAction String := do
  match ← ShellAction.lift (readPath path) with
  | .ok content => return ofBytes content
  | .error .isADirectory => return ""
  | .error problem =>
      ShellAction.fail s!"cannot open {path}: {openProblem false problem}"

end Deobfuscate.Shell
