import Deobfuscate.Source.Generics

/-!
# Literal edits of lines

An edit replaces a piece on those lines of one file that contain a given
text.
-/

namespace Deobfuscate.Source

open Deobfuscate.Text

/-- A literal edit for the lines of one file. -/
structure LineEdit where
  file : String
  className : String
  /-- Only lines that contain this text are edited. -/
  contains : String
  replace : String
  replacement : String
  reason : String
  deriving DecidableEq, Repr

def readLineEdit : List String → Except TableFault LineEdit
  | file :: className :: contains :: replace :: replacement :: rest =>
      .ok ⟨file, className, contains, replace, replacement, rest.headD ""⟩
  | _ => .error (.missingColumns 5)

def LineEdit.apply (edit : LineEdit) (line : List Char) : List Char :=
  if hasPiece edit.contains.toList line then
    replaceAll edit.replace.toList edit.replacement.toList line
  else line

end Deobfuscate.Source
