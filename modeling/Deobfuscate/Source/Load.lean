import Deobfuscate.Mapping.Files
import Deobfuscate.Source.Renamer

/-!
# Loading what a renamer needs
-/

namespace Deobfuscate.Source

/-- Why sources could not be renamed. -/
inductive RenameError
  | mapping (error : Mapping.Error)
  | table (error : TableError)
  | boundary (error : BoundaryError)
  deriving DecidableEq, Repr

/-- The wording of what went wrong. -/
def RenameError.message : RenameError → String
  | .mapping error => error.message
  | .table error => error.message
  | .boundary error => error.message

/-- The files of the tables of a renamer. -/
structure TableFiles where
  fields : Path
  methods : Path
  parameters : Option Path := none
  generics : Option Path := none
  edits : Option Path := none
  deriving DecidableEq, Repr

def loadNames (tree : FileTree) (path : Path) :
    Except RenameError NameTable :=
  (NameTable.load tree path).mapError RenameError.mapping

def loadRecords {α : Type} (tree : FileTree) (path : Path)
    (read : List String → Except TableFault α) :
    Except RenameError (List α) := do
  let text ← (Mapping.readText tree path).mapError RenameError.mapping
  let records ← (Csv.parse text path).mapError
    (RenameError.mapping ∘ Mapping.Error.malformed)
  (readRecords path read records).mapError RenameError.table

/-- Load something from a file, if there is one. -/
def loadOptional {α : Type} (load : Path → Except RenameError α)
    (default : α) : Option Path → Except RenameError α
  | some path => load path
  | none => .ok default

def Tables.load (tree : FileTree) (files : TableFiles) :
    Except RenameError Tables := do
  let fields ← loadNames tree files.fields
  let methods ← loadNames tree files.methods
  let parameters ← loadOptional (loadNames tree) .empty files.parameters
  let generics ←
    loadOptional (loadRecords tree · readGeneric) [] files.generics
  let edits ← loadOptional (loadRecords tree · readLineEdit) [] files.edits
  return { fields, methods, parameters, generics, edits }

end Deobfuscate.Source
