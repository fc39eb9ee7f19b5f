import Deobfuscate.Shell.Program

/-!
# Copying files
-/

namespace Deobfuscate.Shell

def readPath (path : String) : Process (Except Problem Bytes) := do
  match ← Process.openPath path .read with
  | .error problem => return .error problem
  | .ok source => Process.readAll source blockLimit []

/-- Replace what stands at a path. -/
def writePath (path : String) (content : Bytes) :
    Process (Except Problem Unit) := do
  match ← Process.openPath path .write with
  | .error problem => return .error problem
  | .ok target =>
      if content.isEmpty then return .ok ()
      else Process.writeEndpoint content target

def below (directory name : String) : String :=
  if directory.endsWith "/" then directory ++ name
  else directory ++ "/" ++ name

def lastName (path : String) : String :=
  match (Path.mk path).fileName with
  | some name => name
  | none => path

/-- Make a directory, unless it is there. -/
def makeDirectory (path : String) : Process (Except Problem Unit) := do
  let place ← Process.resolve path
  Process.act fun _ world =>
    if world.tree.isDirectory place then (.ok (), world)
    else
      match world.tree.createDirectory place with
      | .ok tree => (.ok (), { world with tree })
      | .error problem => (.error problem, world)

def copyFile (source target : String) : Process Nat := do
  if (← fileKind? source) == (← fileKind? target) &&
      (← Process.view fun id world => do
        let process ← world.process? id
        let place (path : String) := process.directory.child (toText path)
        let left ← (world.tree.find (place source)).toOption
        let right ← (world.tree.find (place target)).toOption
        guard (left.1 == right.1)).isSome then
    complain (s!"cp: {quotedName source} and {quotedName target} " ++
      "are the same file")
  else
    match ← readPath source with
    | .error problem =>
        complain (s!"cp: cannot open {quotedName source} for reading: " ++
          systemText problem)
    | .ok content =>
        match ← writePath target content with
        | .ok _ => return 0
        | .error problem =>
            let problem :=
              if problem == .isADirectory && target.endsWith "/" then
                .notADirectory
              else problem
            complain
              (s!"cp: cannot create regular file {quotedName target}: " ++
                systemText problem)

def directoryNames (path : String) : Process (List String) := do
  let place ← Process.resolve path
  let tree ← Process.tree
  match tree.find place with
  | .ok (location, _) =>
      let names := tree.nodes.filterMap fun entry =>
        if entry.1.length == location.length + 1 &&
            location.isPrefixOf entry.1
        then entry.1.getLast?.map ofText
        else none
      return names.mergeSort fun left right => left ≤ right
  | .error _ => return []

/-- Copy a file or, if that is asked for, a directory with all that is in it. -/
def copyNode (deep : Bool) : Nat → String → String → Process Nat
  | 0, _, _ => return 1
  | fuel + 1, source, target => do
      match ← fileKind? source with
      | none =>
          let problem :=
            match (← Process.tree).find (← Process.resolve source) with
            | .error problem => systemText problem
            | .ok _ => systemText .notFound
          complain s!"cp: cannot stat {quotedName source}: {problem}"
      | some .directory =>
          if !deep then
            complain ("cp: -r not specified; omitting directory " ++
              quotedName source)
          else
            match ← makeDirectory target with
            | .error problem =>
                complain
                  (s!"cp: cannot create directory {quotedName target}: " ++
                    systemText problem)
            | .ok _ =>
                let names ← directoryNames source
                names.foldlM (fun status name => do
                  let copied ←
                    copyNode deep fuel (below source name) (below target name)
                  return max status copied) 0
      | some _ => copyFile source target

def copyTo (deep : Bool) (target source : String) : Process Nat := do
  let place :=
    if ← isDirectory target then below target (lastName source) else target
  copyNode deep 100 source place

def copy : Program :=
  withOptions "cp" "afprRd" "" fun line => do
    let deep := line.has 'r' || line.has 'R' || line.has 'a'
    match line.operands with
    | [] => misuse "cp" "missing file operand"
    | [source] =>
        misuse "cp"
          s!"missing destination file operand after {quotedName source}"
    | [source, target] => copyTo deep target source
    | operands =>
        let target := operands.getLastD ""
        match ← fileKind? target with
        | some .directory =>
            operands.dropLast.foldlM (fun status source => do
              let copied ← copyTo deep target source
              return max status copied) 0
        | some _ => complain s!"cp: target {quotedName target}: Not a directory"
        | none =>
            complain s!"cp: target {quotedName target}: {systemText .notFound}"

end Deobfuscate.Shell
