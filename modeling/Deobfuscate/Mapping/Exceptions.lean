import Deobfuscate.NameTable
import Deobfuscate.Text.Lines

/-!
# Exception tables

A line of an exception table names a method as `owner.name(descriptor)`,
followed by an equals sign and what it throws.  Its human form has the method
name replaced; lines of any other shape stay as they are.
-/

namespace Deobfuscate.Mapping

open Deobfuscate.Text

def methodOfKey (key : List Char) :
    Option (List Char × List Char × List Char) := do
  let (owner, afterDot) ← splitOnce '.' key
  let (name, signature) ← splitOnce '(' afterDot
  if '(' ∈ owner then none
  else some (owner ++ ['.'], name, '(' :: signature)

def humanExceptionLine (line : String) (methods : NameTable) : String :=
  let (key, value) :=
    match splitOnce '=' line.toList with
    | some (key, value) => (key, '=' :: value)
    | none => (line.toList, [])
  match methodOfKey key with
  | none => line
  | some (owner, name, signature) =>
      match methods.name? (String.ofList name) with
      | none => line
      | some human =>
          String.ofList (owner ++ human.toList ++ signature ++ value)

/-- Exception tables in intermediate and in human names. -/
structure ExceptionTables where
  intermediate : String
  human : String
  deriving DecidableEq, Repr

/-- Merge the lines of several texts in order. -/
def mergeExceptions (texts : List String) (methods : NameTable) :
    ExceptionTables :=
  let lines := texts.flatMap plainLines
  { intermediate := String.join (lines.map (· ++ "\n"))
    human := String.join
      (lines.map fun line => humanExceptionLine line methods ++ "\n") }

end Deobfuscate.Mapping
