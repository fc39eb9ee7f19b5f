import Deobfuscate.Dict
import Deobfuscate.FileTree.Path

/-!
# Commands of tools

A tool is started in a directory with arguments and additional variables of the
environment.  Arguments come from templates, in which a name in braces stands
for a value.
-/

namespace Deobfuscate

open Deobfuscate.Text

/-- How a tool is started. -/
structure ToolCommand where
  directory : Path
  program : Path
  arguments : List String
  environment : Dict String := .empty

namespace ToolCommand

/-- An argument as it is shown: one with blanks stands in quotes. -/
def shownArgument (argument : String) : String :=
  let chars := argument.toList
  if chars.contains ' ' || chars.contains '\t' then
    "\"" ++ String.ofList (replaceAll ['"'] ['\\', '"'] chars) ++ "\""
  else argument

def text (command : ToolCommand) : String :=
  command.program.text ++
    String.join (command.arguments.map fun argument =>
      " " ++ shownArgument argument)

end ToolCommand

/-- What stands for the value of a name. -/
def placeholder (name : String) : List Char :=
  '{' :: name.toList ++ ['}']

/-- Replace one placeholder wherever it stands. -/
def expandOne (chars : List Char) (binding : String × String) : List Char :=
  replaceAll (placeholder binding.1) binding.2.toList chars

/-- Replace the placeholders of the bindings, one after another; the value of
an earlier one may hold the placeholder of a later one. -/
def expandArgument (bindings : List (String × String)) (argument : String) :
    String :=
  String.ofList (bindings.foldl expandOne argument.toList)

/-- Replace placeholders in every argument.  Unknown ones stay. -/
def expandPlaceholders (template : List String)
    (bindings : List (String × String)) : List String :=
  template.map (expandArgument bindings)

end Deobfuscate
