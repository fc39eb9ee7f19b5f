import Deobfuscate.Shell.Expansion

/-!
# Redirections

A redirection lets a descriptor lead somewhere else while a command runs.
-/

namespace Deobfuscate.Shell

/-- What a redirection does when its words are expanded. -/
inductive Rerouting
  | openFile (path : String) (purpose : Process.Purpose)
  /-- Write to a file that may be emptied only if that is not forbidden. -/
  | openGently (path : String)
  | copy (source : Nat)
  | close
  /-- Read a text of the script, which is expanded when its turn comes. -/
  | document (text : Word)

/-- The wording of why a file could not be opened. -/
def openProblem (writes : Bool) : Problem → String
  | .notFound | .notADirectory =>
      if writes then "Directory nonexistent" else "No such file"
  | .isADirectory => "Is a directory"
  | .alreadyExists => "File exists"
  | .invalidFilename => "File name too long"
  | .invalidInput => "Invalid argument"
  | problem => problem.message

def expandRedirect (output : Command → ShellAction String) (fuel : Nat) :
    Redirect → ShellAction (Nat × Rerouting)
  | .mk descriptor kind => do
      let text (word : Word) : ShellAction String :=
        expandText output fuel word
      let rerouting ←
        match kind with
        | .input path => return (descriptor, .openFile (← text path) .read)
        | .write path true =>
            return (descriptor, .openFile (← text path) .write)
        | .write path false => return (descriptor, .openGently (← text path))
        | .append path => return (descriptor, .openFile (← text path) .append)
        | .update path => return (descriptor, .openFile (← text path) .update)
        | .document number =>
            let word := ((← get).documents.lookup number).getD []
            return (descriptor, .document word)
        | .copy source => text source
      match rerouting.toList with
      | ['-'] => return (descriptor, .close)
      | [digit] =>
          if digit.isDigit then return (descriptor, .copy (digitValue digit))
          else ShellAction.failReading "Syntax error: Bad fd number"
      | _ => ShellAction.failReading "Syntax error: Bad fd number"

def lead (descriptor : Nat) (endpoint : Endpoint) : Process Unit :=
  Process.changeOwn fun process =>
    { process with
      descriptors := process.descriptors.set descriptor endpoint }

/-- Let a descriptor lead to a file.  What went wrong is given. -/
def leadToFile (descriptor : Nat) (path : String)
    (purpose : Process.Purpose) : Process (Option String) := do
  match ← Process.openPath path purpose with
  | .ok endpoint =>
      lead descriptor endpoint
      return none
  | .error problem =>
      let writes := purpose != .read
      let verb := if writes then "create" else "open"
      return some s!"cannot {verb} {path}: {openProblem writes problem}"

/-- Let a descriptor lead where another one leads.  What went wrong is given. -/
def leadAlike (descriptor source : Nat) : Process (Option String) := do
  if source == descriptor then return none
  match (← Process.descriptors).lookup source with
  | none => return some s!"{source}: Bad file descriptor"
  | some endpoint =>
      lead descriptor endpoint
      return none

def leadToText (descriptor : Nat) (content : String) : Process Unit := do
  let number ← Process.act fun _ world => world.addPipe (toBytes content)
  lead descriptor (.pipeEnd number)

/-- Whether a path leads to a file that must not be emptied. -/
def isKept (path : String) : Process Bool := do
  let place ← Process.resolve path
  return (← Process.tree).isFile place

/-- Do a redirection.  Whether all went well is given.  A text that cannot be
expanded is no more than a redirection that went wrong. -/
def reroute (text : Word → ShellAction String) (descriptor : Nat) :
    Rerouting → ShellAction Bool
  | .openFile path purpose => attempt (leadToFile descriptor path purpose)
  | .openGently path => do
      let gentle ← ShellAction.hasOption 'C'
      let kept ← ShellAction.lift (isKept path)
      if gentle && kept then
        let reason := openProblem true .alreadyExists
        attempt (return some s!"cannot create {path}: {reason}")
      else attempt (leadToFile descriptor path .write)
  | .copy source => attempt (leadAlike descriptor source)
  | .close => do
      ShellAction.lift (Process.changeOwn fun process =>
        { process with descriptors := process.descriptors.close descriptor })
      return true
  | .document word => do
      match ← ShellAction.attempt (text word) with
      | .ok content =>
          ShellAction.lift (leadToText descriptor content)
          return true
      | .error .failed => return false
      | .error jump => throw jump
where
  /-- Say what went wrong. -/
  attempt (action : Process (Option String)) : ShellAction Bool := do
    match ← ShellAction.lift action with
    | none => return true
    | some problem =>
        ShellAction.warn problem
        return false

/-- Do redirections one after another until one fails.  Whether all went well is
given. -/
def rerouteAll (text : Word → ShellAction String) :
    List (Nat × Rerouting) → ShellAction Bool
  | [] => return true
  | (descriptor, rerouting) :: rest => do
      if ← reroute text descriptor rerouting then rerouteAll text rest
      else return false

/-- Where the descriptors of some redirections lead now. -/
def savedRoutes (redirects : List (Nat × Rerouting)) :
    ShellAction (List (Nat × Option Endpoint)) := do
  let descriptors ← ShellAction.lift Process.descriptors
  return redirects.map fun redirect =>
    (redirect.1, descriptors.lookup redirect.1)

/-- Let descriptors lead where they led before. -/
def restoreRoutes (saved : List (Nat × Option Endpoint)) :
    ShellAction Unit := do
  if saved.isEmpty then return ()
  ShellAction.lift (Process.changeOwn fun process =>
    { process with
      descriptors := saved.foldl (fun descriptors route =>
        match route.2 with
        | some endpoint => descriptors.set route.1 endpoint
        | none => descriptors.close route.1) process.descriptors })

end Deobfuscate.Shell
