import Deobfuscate.NameTable
import Deobfuscate.Source.Declaration
import Deobfuscate.Source.Identifier
import Deobfuscate.Source.Javadoc
import Deobfuscate.Source.LineEdit
import Deobfuscate.Text.Lines

/-!
# Renaming sources

A renamer turns the intermediate names of source files into human ones, line
by line.  Above a documented declaration it puts a comment, on a declaration
that lost type arguments it puts them back, and it carries out the literal
edits of the file.
-/

namespace Deobfuscate.Source

open Deobfuscate.Text

/-- What is put above documented declarations. -/
inductive JavadocMode
  /-- The documentation as a comment. -/
  | full
  /-- A marker that names the declaration. -/
  | stub
  /-- Nothing. -/
  | skip
  deriving DecidableEq, Repr

/-- The tables a renamer looks names up in. -/
structure Tables where
  fields : NameTable := Dict.empty
  methods : NameTable := Dict.empty
  parameters : NameTable := Dict.empty
  generics : GenericTable := []
  edits : List LineEdit := []

/-- A suffix had no place on its declaration line. -/
structure BoundaryError where
  file : String
  line : Nat
  slot : Slot
  suffix : String
  text : String
  deriving DecidableEq, Repr

def BoundaryError.message (error : BoundaryError) : String :=
  s!"{error.file}:{error.line}: cannot apply generic `{error.suffix}` to " ++
    s!"parameter {error.slot.text}: |{error.text}|"

/-- A table that documents and renames, with the mode of documentation. -/
structure Renamer where
  tables : Tables
  mode : JavadocMode := .full

namespace Renamer

def humanName (renamer : Renamer) (kind : NameKind) (name : String) :
    Option String :=
  match kind with
  | .method => NameTable.name? renamer.tables.methods name
  | .field => NameTable.name? renamer.tables.fields name
  | .parameter => NameTable.name? renamer.tables.parameters name

def rename (renamer : Renamer) (line : List Char) : List Char :=
  replaceNames renamer.humanName 0 line

/-- The markers of lines that stand for documentation. -/
def stubMarkers : List (List Char) :=
  ["// DOCSTUB".toList, "// JAVADOC".toList]

/-- The lines that document a declaration. -/
def commentFor (renamer : Renamer) (indent : List Char) (kind : String)
    (name documentation : String) (isMethod : Bool) : List (List Char) :=
  match renamer.mode with
  | .stub => [indent ++ s!"// DOCSTUB {kind} $$ {name}".toList]
  | _ => javadoc indent documentation.toList isMethod

def documentation? (renamer : Renamer) : NameKind → String → Option String
  | .method, name => NameTable.documentation? renamer.tables.methods name
  | .field, name => NameTable.documentation? renamer.tables.fields name
  | .parameter, _ => none

def resolveStub (renamer : Renamer) (line : List Char) :
    Option (List (List Char)) := do
  let (kind, name) ← firstName line
  let documentation ← renamer.documentation? kind name
  let indent := ((stubMarkers.findSome? fun marker =>
    findPiece marker line).map Prod.fst).getD []
  return javadoc indent documentation.toList true

def isAnnotation (line : Line) : Bool :=
  (trimStartChars line.content).head? == some '@'

/-- Put lines above the annotations at the end of an output.  Both the output
and the lines are given in reverse. -/
def insertAbove (comment : List Line) : List Line → List Line
  | [] => comment
  | line :: rest =>
      if isAnnotation line then line :: insertAbove comment rest
      else comment ++ line :: rest

def applies (file : String) (entry : GenericEntry) (line : List Char) :
    Bool :=
  entry.file = file && hasPiece entry.simpleType.toList line

/-- Put suffixes on a line in turn: the new line and the positions of the
entries used. -/
def insertSuffixes (file : String) (number : Nat) (line : List Char) :
    List (Nat × GenericEntry) →
      Except BoundaryError (List Char × List Nat)
  | [] => .ok (line, [])
  | (index, entry) :: rest =>
      if applies file entry line then
        match insertSuffix line entry with
        | none =>
            .error ⟨file, number, entry.slot, entry.suffix,
              String.ofList line⟩
        | some edited => do
            let (edited, used) ← insertSuffixes file number edited rest
            return (edited, index :: used)
      else insertSuffixes file number line rest

/-- What becomes of a line before its names are replaced: the lines that come
above it and its annotations, the lines that come directly above it, the line,
and the entries used. -/
structure Declared where
  above : List (List Char) := []
  directlyAbove : List (List Char) := []
  line : List Char
  used : List Nat := []
  deriving DecidableEq, Repr

def memberComment (renamer : Renamer) (kind : String) (isMethod : Bool)
    (table : NameTable) (indent : List Char) (name : String) :
    List (List Char) :=
  if renamer.mode = .skip then []
  else
    match NameTable.documentation? table name with
    | some text => renamer.commentFor indent kind name text isMethod
    | none => []

/-- Whether a line is a marker that stands for documentation. -/
def isStub (line : List Char) : Bool :=
  stubMarkers.any (startsWith · (trimStartChars line))

/-- Replace a marker by the comment it stands for.  The last line of the
comment takes the place of the marker. -/
def expandStub (renamer : Renamer) (line : List Char) : Declared :=
  match renamer.resolveStub line with
  | none => { line }
  | some comment =>
      { directlyAbove := comment.dropLast, line := comment.getLastD line }

def declare (renamer : Renamer) (file : String) (number : Nat)
    (comment : List (List Char)) (line : List Char) (key : String) :
    Except BoundaryError Declared := do
  let (edited, used) ←
    insertSuffixes file number line (renamer.tables.generics.lookup key)
  return { above := comment, line := edited, used }

/-- Document a line and put type arguments on it. -/
def declareLine (renamer : Renamer) (file : String) (number : Nat)
    (line : List Char) : Except BoundaryError Declared :=
  if startsWith "return ".toList (trimStartChars line) then .ok { line }
  else
    match methodOfLine line with
    | some (indent, name) =>
        renamer.declare file number
          (renamer.memberComment "METHOD" true renamer.tables.methods
            indent name) line name
    | none =>
        if renamer.mode ≠ .skip ∧ isStub line then
          .ok (renamer.expandStub line)
        else
          match fieldOfLine line with
          | some (indent, name) =>
              renamer.declare file number
                (renamer.memberComment "FIELD" false renamer.tables.fields
                  indent name) line name
          | none =>
              if isConstructorLine line then
                match constructorSignature line with
                | some signature =>
                    renamer.declare file number [] line
                      (file ++ "@init:" ++ signature)
                | none => .ok { line }
              else .ok { line }

def editsFor (renamer : Renamer) (file : String) : List LineEdit :=
  renamer.tables.edits.filter (·.file = file)

def dropNullCasts (renamer : Renamer) (line : List Char) : List Char :=
  if renamer.tables.generics.isEmpty then line
  else replaceAll "(Object)null".toList "null".toList line

def finishLine (renamer : Renamer) (file : String) (line : List Char) :
    List Char :=
  (renamer.editsFor file).foldl (fun line edit => edit.apply line)
    (renamer.rename (renamer.dropNullCasts line))

def renameLines (renamer : Renamer) (file : String)
    (terminator : Terminator) :
    Nat → List Line → List Line →
      Except BoundaryError (List Line × List Nat)
  | _, output, [] => .ok (output.reverse, [])
  | number, output, line :: rest => do
      let declared ← renamer.declareLine file number line.content
      let asLines (contents : List (List Char)) : List Line :=
        contents.reverse.map fun content => ⟨content, terminator⟩
      let output :=
        asLines declared.directlyAbove ++
          insertAbove (asLines declared.above) output
      let finished : Line :=
        ⟨renamer.finishLine file declared.line, line.terminator⟩
      let (lines, used) ←
        renameLines renamer file terminator (number + 1)
          (finished :: output) rest
      return (lines, declared.used ++ used)

/-- A renamed file and the positions of the type arguments put back. -/
structure Renamed where
  text : String
  used : List Nat
  deriving DecidableEq, Repr

def renameFile (renamer : Renamer) (file text : String) :
    Except BoundaryError Renamed := do
  let chars := text.toList
  let (lines, used) ←
    renamer.renameLines file (firstTerminator chars) 1 [] (splitLines chars)
  return ⟨String.ofList (joinLines lines), used⟩

/-! ## All sources -/

structure Summary where
  files : Nat
  genericsApplied : Nat
  unused : List GenericEntry
  deriving DecidableEq, Repr

def renameFiles (renamer : Renamer) :
    List (String × String) →
      Except BoundaryError (List (String × Renamed))
  | [] => .ok []
  | (path, text) :: rest => do
      let renamed ← renamer.renameFile path text
      return (path, renamed) :: (← renamer.renameFiles rest)

def renameAll (renamer : Renamer) (sources : Dict String) :
    Except BoundaryError (Dict String × Summary) := do
  let renamed ← renamer.renameFiles sources.toList
  let used := renamed.flatMap fun file => file.2.used
  let unused :=
    (renamer.tables.generics.zipIdx.filter fun entry =>
      !used.contains entry.2).map Prod.fst
  return (sources.insertAll (renamed.map fun file => (file.1, file.2.text)),
    ⟨renamed.length, used.length, unused⟩)

end Renamer

end Deobfuscate.Source
