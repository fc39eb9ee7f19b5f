import Deobfuscate.Csv
import Deobfuscate.Text.Blank
import Deobfuscate.Text.Decimal
import Deobfuscate.Text.Search

/-!
# Missing type arguments

A generics table lists type arguments that a declaration lost, with the place
on the declaration line where they go: after the return type, after the type
of a field, or after the type of a parameter.
-/

namespace Deobfuscate.Source

open Deobfuscate.Text

/-- Where a suffix goes on its line. -/
inductive Slot
  | returnType
  | parameter (index : Nat)
  | fieldType
  deriving DecidableEq, Repr

/-- A slot as it is written in tables and messages. -/
def Slot.text : Slot → String
  | .returnType => "@return"
  | .parameter index => toString index
  | .fieldType => "@field"

/-- A suffix with the declaration it belongs to. -/
structure GenericEntry where
  file : String
  className : String
  /-- The declared name; for a constructor the file and its signature. -/
  key : String
  slot : Slot
  /-- The raw type, whose simple name must stand on the line. -/
  typeName : String
  suffix : String
  deriving DecidableEq, Repr

def GenericEntry.simpleType (entry : GenericEntry) : String :=
  match splitLast '.' entry.typeName.toList with
  | some (_, simple) => String.ofList simple
  | none => entry.typeName

/-- Entries in the order of the table. -/
abbrev GenericTable := List GenericEntry

def genericKey (file declared : String) : String :=
  let bare := (declared.toList.takeWhile (· != ':'))
  if String.ofList bare = "@init" then file ++ declared
  else String.ofList bare

def readSlot (column : String) : Except TableFault Slot :=
  if column = "@return" then .ok .returnType
  else if column = "@field" || column = "" then .ok .fieldType
  else
    match readBounded wordBound column.toList with
    | some index => .ok (.parameter index)
    | none => .error (.parameterIndex column)

def isSkippedRecord (fields : List String) : Bool :=
  fields.head? == some "zipEntry" || fields.all (· = "")

def readGeneric : List String → Except TableFault GenericEntry
  | file :: className :: declared :: _ :: slot :: typeName :: suffix :: _ => do
      return ⟨file, className, genericKey file declared, ← readSlot slot,
        typeName, suffix⟩
  | _ => .error (.missingColumns 7)

def readRecords {α : Type} (path : Path)
    (read : List String → Except TableFault α) (records : List Csv.Record) :
    Except TableError (List α) :=
  (records.filter fun record => !isSkippedRecord record.fields).mapM
    fun record =>
      (read record.fields).mapError fun fault => ⟨path, record.line, fault⟩

def GenericTable.lookup (table : GenericTable) (key : String) :
    List (Nat × GenericEntry) :=
  (table.zipIdx.filter fun pair => pair.1.key = key).map fun pair =>
    (pair.2, pair.1)

def isAsciiBlank (char : Char) : Bool :=
  char == ' ' || char == '\t' || char == '\n' || char == '\r' ||
    char == '\x0c'

/-- What follows a number of commas outside nested brackets; `none` if the
parameters end before. -/
def skipParameters : Nat → Nat → List Char → Option (List Char)
  | 0, _, rest => some rest
  | _ + 1, _, [] => none
  | count + 1, depth, char :: rest =>
      if char = '(' ∨ char = '<' then
        skipParameters (count + 1) (depth + 1) rest
      else if char = ')' ∧ depth = 0 then none
      else if char = ')' ∨ char = '>' then
        skipParameters (count + 1) (depth - 1) rest
      else if char = ',' ∧ depth = 0 then skipParameters count 0 rest
      else skipParameters (count + 1) depth rest

/-- Cut a line at the first space outside angle brackets that does not follow
`final`.  `before` holds the characters already passed in reverse. -/
def splitTypeEnd (before : List Char) :
    Nat → List Char → Option (List Char × List Char)
  | _, [] => none
  | depth, char :: rest =>
      if char = '<' then splitTypeEnd (char :: before) (depth + 1) rest
      else if char = '>' then splitTypeEnd (char :: before) (depth - 1) rest
      else if char = ' ' ∧ depth = 0 then
        if endsWith "final".toList (trimEndChars before.reverse) then
          splitTypeEnd (char :: before) 0 rest
        else some (before.reverse, char :: rest)
      else splitTypeEnd (char :: before) depth rest

def splitParameterType (line : List Char) (index : Nat) :
    Option (List Char × List Char) := do
  let (_, parameters) ← splitOnce '(' line
  let rest ← skipParameters index 0 parameters
  let rest := rest.dropWhile isAsciiBlank
  splitTypeEnd (line.take (line.length - rest.length)).reverse 0 rest

def splitSlot (line : List Char) : Slot → Option (List Char × List Char)
  | .returnType => do
      let (head, rest) ← splitOnce '(' line
      let (before, name) ← splitLast ' ' head
      return (before, ' ' :: (name ++ '(' :: rest))
  | .fieldType => do
      let (before, rest) ← findPiece " field_".toList line
      return (before, " field_".toList ++ rest)
  | .parameter index => splitParameterType line index

def insertSuffix (line : List Char) (entry : GenericEntry) :
    Option (List Char) :=
  (splitSlot line entry.slot).map fun parts =>
    parts.1 ++ entry.suffix.toList ++ parts.2

end Deobfuscate.Source
