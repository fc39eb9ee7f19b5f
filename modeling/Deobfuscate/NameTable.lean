import Deobfuscate.Csv
import Deobfuscate.Dict

/-!
# Name tables

A name table gives human names, and sometimes documentation, to intermediate
names.  It is read from comma-separated records in one of three layouts: with
the documentation in the third column, with a digit there and the
documentation in the fourth, or without any.
-/

namespace Deobfuscate

/-- The human name of a symbol and its documentation. -/
structure NameEntry where
  name : String
  documentation : Option String
  deriving DecidableEq, Repr

/-- Human names by intermediate name. -/
abbrev NameTable := Dict NameEntry

namespace NameTable

def name? (table : NameTable) (intermediate : String) : Option String :=
  (table.get? intermediate).map NameEntry.name

def documentation? (table : NameTable) (intermediate : String) :
    Option String :=
  (table.get? intermediate).bind NameEntry.documentation

/-- Whether a third column tells the side a symbol belongs to instead of
documenting it. -/
def isSideMarker (column : String) : Bool :=
  column != "" && column.toList.all Char.isDigit

def documentationOf : List String → Option String
  | [] => none
  | [column] => if isSideMarker column || column = "" then none else some column
  | _ :: column :: _ => if column = "" then none else some column

def isHeading (column : String) : Bool :=
  column = "searge" || column = "param"

/-- What a record adds to a table: a heading and an empty record add
nothing. -/
def entryOf (fields : List String) :
    Except TableFault (Option (String × NameEntry)) :=
  if fields.all (· = "") then .ok none
  else
    match fields with
    | [] => .ok none
    | [column] =>
        if isHeading column then .ok none else .error .missingNameColumn
    | column :: name :: rest =>
        if isHeading column then .ok none
        else .ok (some (column, ⟨name, documentationOf rest⟩))

def addRecords (path : Path) :
    NameTable → List Csv.Record → Except TableError NameTable
  | table, [] => .ok table
  | table, record :: records =>
      match entryOf record.fields with
      | .error fault => .error ⟨path, record.line, fault⟩
      | .ok none => addRecords path table records
      | .ok (some (key, entry)) =>
          addRecords path (table.insert key entry) records

/-- Read a name table; a later record of a name replaces an earlier one. -/
def parse (text : String) (path : Path) : Except TableError NameTable := do
  addRecords path Dict.empty (← Csv.parse text path)

end NameTable

end Deobfuscate
