import Deobfuscate.FileTree.Action
import Deobfuscate.Shell.Evaluate
import Deobfuscate.Shell.Schedule
import Deobfuscate.Tool.Result

/-!
# Running tools

A tool runs in its directory until it ends or its time is over.
-/

namespace Deobfuscate

structure RunOptions where
  /-- After how many milliseconds the tool is stopped. -/
  timeout : Option Nat := none
  /-- How many bytes of each output are kept. -/
  limit : Nat := 4 * 1024 * 1024
  deriving DecidableEq, Repr

/-- How many steps a tool may take. -/
def runningFuel : Nat := 1000000000

def holdsZero (text : String) : Bool :=
  text.toList.contains '\x00'

def ToolCommand.isPlain (command : ToolCommand) : Bool :=
  !holdsZero command.program.text && !command.arguments.any holdsZero &&
    !command.environment.toList.any fun binding =>
      holdsZero binding.1 || holdsZero binding.2

/-- The variables with which a tool starts. -/
def ToolCommand.bindings (command : ToolCommand) : List (String × String) :=
  let own := command.environment.toList
  let inherited := Shell.hostEnvironment.filter fun (name, _) =>
    (own.lookup name).isNone
  inherited ++ own

def ToolCommand.process (command : ToolCommand) : Shell.ProcessState where
  id := Shell.firstProcess
  descriptors := [(0, .null), (1, .captured 1), (2, .captured 2)]
  directory := command.directory

def ToolCommand.task (command : ToolCommand) (program : String) : Shell.Task :=
  Shell.Process.task (Shell.runProgram runningFuel {
    program
    name := Shell.ofText command.program.text
    arguments := command.arguments.map Shell.ofText
    environment := command.bindings.map fun (name, value) =>
      (Shell.ofText name, Shell.ofText value) })

def ToolCommand.world (command : ToolCommand) (tree : FileTree) :
    Shell.World where
  tree := tree
  processes := [command.process]

def ToolCommand.program? (command : ToolCommand) (tree : FileTree) :
    Except Problem String := do
  if !command.isPlain then .error .invalidInput
  match ← tree.find command.directory with
  | (_, .directory) =>
      let path := (command.bindings.lookup "PATH").getD ""
      let name := command.program.text
      if name = "" then .error .notFound
      else
        ((command.world tree).findProgram Shell.firstProcess
          (Shell.ofText name) (Shell.ofText path)).map Prod.fst
  | _ => .error .notADirectory

/-- Run a tool.  Ending badly is part of the result. -/
def runTool (command : ToolCommand) (options : RunOptions) :
    FileAction Problem ToolResult := do
  let tree ← get
  match command.program? tree with
  | .error problem => throw problem
  | .ok program =>
      let scene := Shell.Scene.run runningFuel
        (.start (command.world tree) Shell.firstProcess (command.task program)
          options.timeout)
      let world := scene.world
      set world.tree
      return {
        status := world.endOf Shell.firstProcess
        timedOut := scene.timedOut
        output := .ofBytes options.limit (world.writtenTo 1)
          (world.writtenTo 2) }

def runToolChecked (command : ToolCommand) (options : RunOptions) :
    FileAction ToolError ToolResult := do
  let result ← FileAction.mapError (ToolError.notStarted command)
    (runTool command options)
  if result.isSuccess then return result
  else throw (.failed command result)

end Deobfuscate
