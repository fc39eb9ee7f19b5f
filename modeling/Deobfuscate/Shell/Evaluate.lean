import Deobfuscate.Shell.Invocation
import Deobfuscate.Shell.Parser
import Deobfuscate.Shell.Pipe

/-!
# Running scripts

Commands run one after another, or side by side in processes of their own.  A
script may run forever, so everything here has fuel.
-/

namespace Deobfuscate.Shell

/-- How a command is run. -/
structure Mode where
  /-- The shell has nothing to do after it. -/
  exits : Bool := false
  /-- Its status is looked at, so that it may fail. -/
  tested : Bool := false
  deriving DecidableEq, Repr

def Command.canEndShell : Command → Bool
  | .simple .. | .subshell .. | .background .. | .pipeline .. => true
  | _ => false

def endRound : ShellAction Bool := do
  let session ← get
  match session.skip with
  | .nothing => return false
  | .leave => return true
  | .breakLoops count =>
      set { session with
        skip := if count ≤ 1 then .nothing else .breakLoops (count - 1) }
      return true
  | .continueLoop count =>
      if count ≤ 1 then
        set { session with skip := .nothing }
        return false
      else
        set { session with skip := .continueLoop (count - 1) }
        return true

def insideLoop (action : ShellAction Nat) : ShellAction Nat := do
  modify fun session => { session with loops := session.loops + 1 }
  let status ← action
  modify fun session => { session with loops := session.loops - 1 }
  return status

def setStatus (status : Nat) : ShellAction Unit :=
  modify fun session => { session with status }

def setLine (line : Nat) : ShellAction Unit :=
  modify fun session => { session with line }

/-- Show a command before it runs, if that is asked for. -/
def trace (messages : Option Endpoint) (assignments : List (String × String))
    (fields : List String) : ShellAction Unit := do
  if ← ShellAction.hasOption 'x' then
    let start := (← ShellAction.value? "PS4").getD ""
    let shown := assignments.map (fun (name, value) => s!"{name}={value}")
    let line := start ++ " ".intercalate (shown ++ fields) ++ "\n"
    match messages with
    | some endpoint =>
        let _ ←
          ShellAction.lift (Process.writeEndpoint (toBytes line) endpoint)
    | none => return ()

mutual

/-- Do what is to be done at the signals that came. -/
def runTraps : Nat → ShellAction Unit
  | 0 => return ()
  | fuel + 1 => do
      if (← get).skip != .nothing then return ()
      match ← ShellAction.takeSignal? with
      | none => return ()
      | some signal =>
          let session ← get
          let status := session.savedStatus.getD session.status
          set { session with savedStatus := some status }
          match session.traps.lookup signal with
          | none => pure ()
          | some action =>
              let _ ← runText fuel {} action
              setStatus status
          modify fun after =>
            { after with savedStatus := session.savedStatus }
          runTraps fuel

def evaluate : Nat → Mode → Command → ShellAction Nat
  | 0, _, _ => return 0
  | fuel + 1, mode, command => do
      if ← ShellAction.hasOption 'n' then return 0
      runTraps fuel
      let status ← evaluateKind fuel mode command
      setStatus status
      runTraps fuel
      let strict ← ShellAction.hasOption 'e'
      if strict && command.canEndShell && !mode.tested && status != 0 then
        throw .ended
      if mode.exits then throw .ended
      return (← get).status

def evaluateKind : Nat → Mode → Command → ShellAction Nat
  | 0, _, _ => return 0
  | fuel + 1, mode, command => do
      let tested : Mode := { tested := true }
      let inner : Mode := { mode with exits := false }
      let text := expandText (substitute fuel) fuel
      let isSkipping : ShellAction Bool := do return (← get).skip != .nothing
      match command with
      | .nothing => return (← get).status
      | .simple line assignments words redirects =>
          evaluateSimple fuel mode line assignments words redirects
      | .pipeline commands =>
          let started ← startPipeline fuel mode false none commands
          ShellAction.waitForJob { processes := started }
      | .redirected line body redirects =>
          setLine line
          let redirects ←
            redirects.mapM (expandRedirect (substitute fuel) fuel)
          let saved ← savedRoutes redirects
          ShellAction.andFinally
            (do
              if ← rerouteAll text redirects then evaluate fuel inner body
              else
                if (← ShellAction.hasOption 'e') && !mode.tested then
                  setStatus 2
                  throw .ended
                return 2)
            (restoreRoutes saved)
      | .subshell line body redirects =>
          setLine line
          let redirects ←
            redirects.mapM (expandRedirect (substitute fuel) fuel)
          let whole : ShellAction Nat := do
            if !(← rerouteAll text redirects) then
              setStatus 2
              throw .failed
            evaluate fuel { mode with exits := true } body
          if mode.exits && !(← ShellAction.hasTraps) then whole
          else
            let child ← forkShell (conclude fuel) (pure ()) whole
            ShellAction.waitForJob { processes := [child] }
      | .background (.pipeline commands) =>
          let started ← startPipeline fuel mode true none commands
          ShellAction.addJob { processes := started }
          return 0
      | .background body =>
          let child ← forkShell (conclude fuel) (goToBackground true)
            (evaluate fuel { exits := true } body)
          ShellAction.addJob { processes := [child] }
          return 0
      | .sequence left right =>
          let status ← evaluate fuel inner left
          if ← isSkipping then return status
          evaluate fuel mode right
      | .both left right =>
          let status ← evaluate fuel tested left
          if status != 0 || (← isSkipping) then return status
          evaluate fuel mode right
      | .either left right =>
          let status ← evaluate fuel tested left
          if status == 0 || (← isSkipping) then return status
          evaluate fuel mode right
      | .negated body =>
          let status ← evaluate fuel tested body
          return if status == 0 then 1 else 0
      | .branch test yes no =>
          let status ← evaluate fuel tested test
          if ← isSkipping then return status
          if status == 0 then evaluate fuel mode yes
          else
            match no with
            | .nothing => return 0
            | no => evaluate fuel mode no
      | .loop untilTest test body =>
          insideLoop (evaluateLoop fuel inner untilTest test body 0)
      | .each line variableName words body =>
          setLine line
          let fields ← words.mapM (expandFields (substitute fuel) fuel)
          insideLoop
            (evaluateEach fuel inner variableName body 0 fields.flatten)
      | .choose line subject cases =>
          setLine line
          let text ← expandText (substitute fuel) fuel subject
          evaluateCases fuel mode text cases
      | .define _ name body =>
          modify fun session =>
            { session with functions := session.functions.insert name body }
          return 0

def evaluateLoop :
    Nat → Mode → Bool → Command → Command → Nat → ShellAction Nat
  | 0, _, _, _, _, status => return status
  | fuel + 1, mode, untilTest, test, body, status => do
      let tested ← evaluate fuel { tested := true } test
      let before := (← get).skip
      if before != .nothing then
        if ← endRound then
          return if before == .leave then tested else status
        evaluateLoop fuel mode untilTest test body status
      else if (tested == 0) == untilTest then return status
      else
        let status ← evaluate fuel mode body
        if ← endRound then return status
        evaluateLoop fuel mode untilTest test body status

/-- Run the rounds of a loop for some fields. -/
def evaluateEach : Nat → Mode → String → Command → Nat → List String →
    ShellAction Nat
  | 0, _, _, _, status, _ | _, _, _, _, status, [] => return status
  | fuel + 1, mode, name, body, _, field :: rest => do
      ShellAction.setVariable name field
      let status ← evaluate fuel mode body
      if ← endRound then return status
      evaluateEach fuel mode name body status rest

/-- Run the first case that fits. -/
def evaluateCases : Nat → Mode → String →
    List (List Word × Command) → ShellAction Nat
  | 0, _, _, _ | _, _, _, [] => return 0
  | fuel + 1, mode, text, (patterns, body) :: rest => do
      let fitting ← patterns.findM? fun word => do
        let pattern ← expandPattern (substitute fuel) fuel word
        return fits pattern text.toList
      match fitting, body with
      | none, _ => evaluateCases fuel mode text rest
      | some _, .nothing => return 0
      | some _, body => evaluate fuel mode body

def startPipeline : Nat → Mode → Bool → Option Nat → List Command →
    ShellAction (List ProcessId)
  | 0, _, _, _, _ | _, _, _, _, [] => return []
  | fuel + 1, mode, inBackground, input, command :: rest => do
      let output ←
        if rest.isEmpty then pure none else some <$> ShellAction.lift makePipe
      let setup : Process Unit := do
        if inBackground then goToBackground input.isNone
        usePipes input output
      let child ← forkShell (conclude fuel) setup
        (evaluate fuel { mode with exits := true } command)
      ShellAction.lift do
        match input with
        | some pipe => dropPipe pipe false
        | none => pure ()
        match output with
        | some pipe => dropPipe pipe true
        | none => pure ()
      return child :: (← startPipeline fuel mode inBackground output rest)

def substitute : Nat → Command → ShellAction String
  | 0, _ => return ""
  | _, .nothing => return ""
  | fuel + 1, command => do
      let pipe ← ShellAction.lift makePipe
      let child ← forkShell (conclude fuel) (usePipes none (some pipe))
        (evaluate fuel { exits := true } command)
      ShellAction.lift (dropPipe pipe true)
      let content ← ShellAction.lift
        (Process.readAll (.pipeEnd pipe) blockLimit [])
      ShellAction.lift (dropPipe pipe false)
      let status ← ShellAction.waitForJob { processes := [child] }
      modify fun session => { session with substitutionStatus := status }
      return substituted (content.toOption.getD [])

/-- Run a simple command. -/
def evaluateSimple : Nat → Mode → Nat → List (String × Word) → List Word →
    List Redirect → ShellAction Nat
  | 0, _, _, _, _, _ => return 0
  | fuel + 1, mode, line, assignments, words, redirects => do
      modify fun session => { session with line, substitutionStatus := 0 }
      let output := substitute fuel
      let fields ← expandArguments output fuel [] words
      let (target, named) :=
        findTarget (← get) (fields.length + 1) true fields
      let isStrict := target.isStrict fields
      let isFramed := target.isFramed fields
      if isFramed then ShellAction.pushFrame
      let body : ShellAction Nat := do
        let messages := (← ShellAction.lift Process.descriptors).lookup 2
        let redirects ← redirects.mapM (expandRedirect output fuel)
        let saved ← savedRoutes redirects
        let main : ShellAction Nat := do
          if !(← rerouteAll (expandText output fuel) redirects) then
            setStatus 2
            if isStrict then throw .failed
            return 2
          let exports := isFramed ||
            (target.keepsRoutes && 1 < named.length)
          let assigned ← assignments.mapM fun (name, word) => do
            let value ← expandValue output fuel word
            if isFramed then ShellAction.makeLocal name
            ShellAction.changeVariable name fun held =>
              { held with
                value := some value
                exported := held.exported || exports }
            return (name, value)
          trace messages assigned fields
          execute fuel mode target named isStrict
        let result ← ShellAction.attempt main
        match target.keepsRoutes, result with
        | true, .ok 0 => pure ()
        | _, _ => restoreRoutes saved
        ShellAction.settle result
      let result ← ShellAction.attempt body
      if isFramed then ShellAction.popFrame
      let status ← ShellAction.settle result
      ShellAction.hearOfJobs hearingTime
      return status

/-- Run what a simple command names. -/
def execute :
    Nat → Mode → Target → List String → Bool → ShellAction Nat
  | 0, _, _, _, _ => return 0
  | fuel + 1, mode, target, fields, isStrict => do
      let name := fields.headD ""
      match target with
      | .nothing => return (← get).substitutionStatus
      | .function body => callFunction fuel mode body fields.tail
      | .builtin name =>
          let outer := (← get).builtin
          modify fun session => { session with builtin := some name }
          let result ← ShellAction.attempt do
            let status ← runBuiltin fuel mode name fields.tail
            setStatus status
          modify fun session => { session with builtin := outer }
          match result with
          | .error .failed =>
              if isStrict then throw .failed else return (← get).status
          | result =>
              ShellAction.settle result
              return (← get).status
      | .program =>
          let path := (← ShellAction.value? "PATH").getD ""
          match ← ShellAction.lift (findProgram name path) with
          | .error problem =>
              ShellAction.warn s!"{name}: {launchMessage problem}"
              let status := if isPath name then launchStatus problem else 127
              setStatus status
              return status
          | .ok (program, _) =>
              let environment ← ShellAction.environment
              let run := runProgram fuel
                { program, name, arguments := fields.tail, environment }
              if mode.exits && !(← ShellAction.hasTraps) then
                ShellAction.lift (run >>= Process.exit)
              else
                let child ←
                  ShellAction.lift (Process.fork (Process.task run))
                ShellAction.waitForJob { processes := [child] }

def callFunction : Nat → Mode → Command → List String → ShellAction Nat
  | 0, _, _, _ => return 0
  | fuel + 1, mode, body, arguments => do
      let outer ← get
      set { outer with
        parameters := arguments
        loops := 0
        optionOffset := 0 }
      let result ← ShellAction.attempt
        (evaluate fuel { tested := mode.tested } body)
      modify fun session =>
        { session with
          parameters := outer.parameters
          loops := outer.loops
          optionOffset := outer.optionOffset
          skip := if session.skip == .leave then .nothing else session.skip }
      let _ ← ShellAction.settle result
      return (← get).status

def runBuiltin : Nat → Mode → String → List String → ShellAction Nat
  | 0, _, _, _ => return 0
  | fuel + 1, mode, name, arguments => do
      match name with
      | "eval" =>
          if arguments.isEmpty then return 0
          runText fuel { tested := mode.tested } (" ".intercalate arguments)
      | "." =>
          match ← readOperands arguments with
          | [] => return 0
          | file :: _ =>
              let path ← findScript file
              let text ← readScript path
              modify fun session => { session with builtin := some path }
              let status ← runText fuel {} text
              modify fun session =>
                { session with
                  skip :=
                    if session.skip == .leave then .nothing
                    else session.skip }
              return status
      | "command" =>
          let (options, operands) ← readOptions "pvV" "" arguments
          match operands, options.getLast? with
          | [], _ | _, none => return 0
          | operand :: _, some (letter, _) =>
              if letter == 'V' then describe operand
              else describeBriefly operand
      | "exec" =>
          match ← readOperands arguments with
          | [] => return 0
          | name :: arguments =>
              let path := (← ShellAction.value? "PATH").getD ""
              match ← ShellAction.lift (findProgram name path) with
              | .error problem =>
                  ShellAction.warn s!"{name}: {launchMessage problem}"
                  setStatus (launchStatus problem)
                  throw .ended
              | .ok (program, _) =>
                  let environment ← ShellAction.environment
                  let run := runProgram fuel
                    { program, name, arguments, environment }
                  ShellAction.lift (run >>= Process.exit)
      | name =>
          match builtin? name with
          | some builtin => builtin arguments
          | none => return 0

def runText : Nat → Mode → String → ShellAction Nat
  | 0, _, _ => return 0
  | fuel + 1, mode, text => do
      let lineRead := (← get).lineRead
      ShellAction.andFinally (runLines fuel mode { rest := text.toList } 0)
        (modify fun session => { session with lineRead })

def runLines : Nat → Mode → Source → Nat → ShellAction Nat
  | 0, _, _, status => return status
  | fuel + 1, mode, source, status => do
      let session ← get
      match nextLine { source with
          documents := []
          nextDocument := session.nextDocument
          aliases := session.aliases } with
      | .error error =>
          setLine error.line
          ShellAction.fail error.fault.message
      | .ok ((command, isLast), source) =>
          set { session with
            lineRead := source.line
            documents := source.documents ++ session.documents
            nextDocument := source.nextDocument }
          match command, isLast with
          | .nothing, true => return status
          | .nothing, false =>
              runTraps fuel
              runLines fuel mode source status
          | command, isLast =>
              let mode' := { mode with exits := mode.exits && isLast }
              let status ← evaluate fuel mode' command
              if isLast || (← get).skip != .nothing then return status
              runLines fuel mode source status

/-- Run what a shell has to do and then what is to be done at its end. -/
def conclude : Nat → ShellAction Nat → ShellAction Nat
  | 0, action => action
  | fuel + 1, action => do
      let result ← ShellAction.attempt action
      modify fun session =>
        { session with
          status :=
            match result with
            | .error .exited => session.savedStatus.getD session.status
            | _ => session.status
          skip := .nothing
          loops := 0
          savedStatus := none }
      let session ← get
      match session.traps.lookup 0 with
      | none => return session.status % 256
      | some text =>
          ShellAction.setTrap 0 none
          modify fun session =>
            { session with savedStatus := some session.status }
          let result ← ShellAction.attempt (runText fuel {} text)
          let session ← get
          match result with
          | .ok _ | .error .exited =>
              return (session.savedStatus.getD session.status) % 256
          | .error _ => return session.status % 256

def runProgram : Nat → Launch → Process Nat
  | 0, _ => return 126
  | fuel + 1, launch => do
      Process.changeOwn fun process =>
        { process with
          caught := []
          pending := []
          descriptors := process.descriptors.filter fun entry =>
            entry.1 < 1000 }
      match utility? launch.program with
      | some program => program launch.arguments
      | none =>
          let process ← Process.view fun id world =>
            (world.process? id).getD
              { id, descriptors := [], directory := ⟨"/"⟩ }
          let session := initialSession launch process
          let (result, _) ←
            (conclude fuel (startScript fuel launch.arguments)).run.run session
          return result.toOption.getD 2

/-- Run what the arguments of a shell say: a text of commands, a file, or what
the shell reads. -/
def startScript : Nat → List String → ShellAction Nat
  | 0, _ => return 126
  | fuel + 1, arguments => do
      let scan ← scanOptions true (arguments.length + 1)
        { operands := arguments }
      let fromInput ← ShellAction.hasOption 's'
      if scan.shown != "" then discard (emit scan.shown)
      let begin (name : Option String) (parameters : List String) :
          ShellAction Unit :=
        modify fun session =>
          { session with
            name := name.getD session.name
            parameters
            line := 1 }
      match scan.operands with
      | [] =>
          if scan.runsText then ShellAction.fail "-c requires an argument"
          begin none []
          runText fuel {} (← readScript "/dev/stdin")
      | first :: rest =>
          if scan.runsText then
            begin rest.head? rest.tail
            runText fuel {} first
          else if fromInput then
            begin none (first :: rest)
            runText fuel {} (← readScript "/dev/stdin")
          else
            let text ← readScript first
            begin (some first) rest
            runText fuel {} text

end

end Deobfuscate.Shell
