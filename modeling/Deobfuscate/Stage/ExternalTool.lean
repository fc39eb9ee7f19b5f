import Deobfuscate.Settings.Basic
import Deobfuscate.Stage.Basic
import Deobfuscate.Tool.Run

/-!
# Stages that run a tool

The arguments of the tool come from its settings: `{input}`, `{output}` and
`{temp}` stand for the paths of the run, and the arguments for each further
file may use `{file}`.
-/

namespace Deobfuscate.ExternalTool

/-- The values of the placeholders of a run. -/
def bindings (paths : StagePaths) : List (String × String) :=
  [("input", (paths.input.map Path.text).getD ""),
    ("output", paths.output.text),
    ("temp", paths.scratch.text)]

def fileArguments (tool : ToolSettings) (paths : StagePaths) (file : Path) :
    List String :=
  expandPlaceholders tool.argumentsPerInput
    (bindings paths ++ [("file", file.text)])

def command (tool : ToolSettings) (paths : StagePaths) : ToolCommand where
  directory := paths.scratch
  program := tool.program
  arguments := expandPlaceholders tool.arguments (bindings paths) ++
    tool.inputs.flatMap (fileArguments tool paths)
  environment := tool.environment

def copyFile (tree : FileTree) (source target : Path) :
    Except Problem FileTree := do
  match ← tree.find source with
  | (_, .directory) => .error .invalidInput
  | (_, .file content _ _) => tree.writeBytes target content

/-- Run a tool.  With `copies` the input goes through unchanged if the tool has
no further files. -/
def run (tool : ToolSettings) (copies : Bool) (paths : StagePaths) :
    StageAction Unit := do
  if copies && tool.inputs.isEmpty then
    let input ← paths.requireInput
    StageAction.change input (copyFile · input paths.output)
  else
    let _ ← StageAction.files
      (runToolChecked (command tool paths) { timeout := tool.timeout }) .tool

/-- Texts behind their number. -/
def countedTexts (texts : List String) : List HashInput :=
  .int64 (Int64.ofNat texts.length) :: texts.map HashInput.text

def programInput (tree : FileTree) (program : Path) : HashInput :=
  if tree.isFile program then .file program else .text program.text

/-- What running a tool depends on. -/
def inputs (tool : ToolSettings) (copies : Bool) (tree : FileTree) :
    List HashInput :=
  [programInput tree tool.program] ++
    countedTexts tool.arguments ++
    countedTexts tool.argumentsPerInput ++
    [.files tool.inputs] ++
    (tool.environment.toList.flatMap fun binding =>
      [.text binding.1, .text binding.2]) ++
    [.bool copies]

def stage (name : String) (tool : ToolSettings) (copies : Bool) : Stage where
  name := name
  inputs := inputs tool copies
  run := run tool copies

end Deobfuscate.ExternalTool
