import Deobfuscate.TableError
import Deobfuscate.Text.Blank
import Deobfuscate.Text.Lines

/-!
# Mapping tables

A mapping table pairs the names of packages, classes, fields and methods in
two namespaces.  On file it has one line for each pair, headed by the kind of
the symbol; blank lines and comments do not count.
-/

namespace Deobfuscate.Mapping

open Deobfuscate.Text

/-- A method: its name with the owner, and its descriptor. -/
structure Method where
  name : String
  descriptor : String
  deriving DecidableEq, Repr

/-- A method as it stands on a line. -/
def Method.text (method : Method) : String :=
  method.name ++ " " ++ method.descriptor

/-- Pairs of names, in the order in which they were read or made. -/
structure Table where
  packages : List (String × String) := []
  classes : List (String × String) := []
  fields : List (String × String) := []
  methods : List (Method × Method) := []
  deriving DecidableEq, Repr

def shortName (name : String) : String :=
  match splitLast '/' name.toList with
  | some (_, short) => String.ofList short
  | none => name

def ownerOf (name : String) : Option String :=
  (splitLast '/' name.toList).map fun parts => String.ofList parts.1

/-- Replace the part of a name after its last slash. -/
def withShortName (name short : String) : String :=
  match splitLast '/' name.toList with
  | some (owner, _) => String.ofList owner ++ "/" ++ short
  | none => short

/-- One line of a mapping file that counts. -/
inductive Entry
  | package (source target : String)
  | type (source target : String)
  | field (source target : String)
  | method (source target : Method)
  deriving DecidableEq, Repr

def readPair (kind : String) (make : String → String → Entry) :
    List String → Except TableFault Entry
  | [source, target] => .ok (make source target)
  | fields => .error (.fieldCount kind 2 fields.length)

def readMethods : List String → Except TableFault Entry
  | [source, sourceDescriptor, target, targetDescriptor] =>
      .ok (.method ⟨source, sourceDescriptor⟩ ⟨target, targetDescriptor⟩)
  | fields => .error (.fieldCount "MD" 4 fields.length)

/-- Read a line; blank lines and comments give nothing. -/
def readLine (raw : String) : Except TableFault (Option Entry) :=
  let line := trimChars raw.toList
  if line.isEmpty || line.head? == some '#' then .ok none
  else
    match splitOnce ':' line with
    | none => .error .missingKind
    | some (kind, rest) =>
        let fields := (wordsOf rest).map String.ofList
        let entry :=
          match String.ofList kind with
          | "PK" => readPair "PK" .package fields
          | "CL" => readPair "CL" .type fields
          | "FD" => readPair "FD" .field fields
          | "MD" => readMethods fields
          | other => .error (.unknownKind other)
        entry.map some

namespace Table

/-- Put an entry in front of its section. -/
def cons (entry : Entry) (table : Table) : Table :=
  match entry with
  | .package source target =>
      { table with packages := (source, target) :: table.packages }
  | .type source target =>
      { table with classes := (source, target) :: table.classes }
  | .field source target =>
      { table with fields := (source, target) :: table.fields }
  | .method source target =>
      { table with methods := (source, target) :: table.methods }

def readLines (path : Path) : Nat → List String → Except TableError Table
  | _, [] => .ok {}
  | number, line :: lines =>
      match readLine line with
      | .error fault => .error ⟨path, number, fault⟩
      | .ok entry => do
          let table ← readLines path (number + 1) lines
          return match entry with
            | some entry => table.cons entry
            | none => table

def parse (text : String) (path : Path) : Except TableError Table :=
  readLines path 1 (plainLines text)

/-- The line of a pair of texts. -/
def renderPair (kind source target : String) : String :=
  kind ++ ": " ++ source ++ " " ++ target ++ "\n"

def render (table : Table) : String :=
  String.join
    (table.packages.map (fun pair => renderPair "PK" pair.1 pair.2) ++
      table.classes.map (fun pair => renderPair "CL" pair.1 pair.2) ++
      table.fields.map (fun pair => renderPair "FD" pair.1 pair.2) ++
      table.methods.map fun pair =>
        renderPair "MD" pair.1.text pair.2.text)

/-- The number of pairs. -/
def size (table : Table) : Nat :=
  table.packages.length + table.classes.length + table.fields.length +
    table.methods.length

def isEmpty (table : Table) : Bool :=
  table.size == 0

end Table

end Deobfuscate.Mapping
