import Deobfuscate.Cache.Replace
import Deobfuscate.Mapping.Error
import Deobfuscate.Mapping.Exceptions
import Deobfuscate.Mapping.Generate

/-!
# Mapping files

The tables for all directions are derived from a base table and two name
tables, and written out together with the merged exception tables.
-/

namespace Deobfuscate

def NameTable.load (tree : FileTree) (path : Path) :
    Except Mapping.Error NameTable := do
  let text ← Mapping.readText tree path
  (NameTable.parse text path).mapError Mapping.Error.malformed

namespace Mapping

def Table.load (tree : FileTree) (path : Path) : Except Error Table := do
  let text ← readText tree path
  (Table.parse text path).mapError Error.malformed

/-- The files that tables are derived from. -/
structure Inputs where
  base : Path
  fields : Path
  methods : Path
  /-- The exception tables, in the order in which they are merged. -/
  exceptions : List Path
  deriving DecidableEq, Repr

/-- The files that tables and merged exception tables are written into. -/
structure Outputs where
  notchToIntermediate : Path
  notchToHuman : Path
  intermediateToHuman : Path
  humanToIntermediate : Path
  humanToNotch : Path
  intermediateExceptions : Path
  humanExceptions : Path
  deriving DecidableEq, Repr

/-- The usual names in a directory. -/
def Outputs.inDirectory (directory : Path) : Outputs where
  notchToIntermediate := directory.child "notch-srg.srg"
  notchToHuman := directory.child "notch-mcp.srg"
  intermediateToHuman := directory.child "srg-mcp.srg"
  humanToIntermediate := directory.child "mcp-srg.srg"
  humanToNotch := directory.child "mcp-notch.srg"
  intermediateExceptions := directory.child "srg.exc"
  humanExceptions := directory.child "mcp.exc"

/-- The tables in the order in which they are written, with the outputs they go
into. -/
def tableFiles (tables : Generated) : List ((Outputs → Path) × Table) :=
  [(Outputs.notchToIntermediate, tables.notchToIntermediate),
    (Outputs.notchToHuman, tables.notchToHuman),
    (Outputs.intermediateToHuman, tables.intermediateToHuman),
    (Outputs.humanToIntermediate, tables.humanToIntermediate),
    (Outputs.humanToNotch, tables.humanToNotch)]

/-- The exception tables in the order in which they are written, with the
outputs they go into. -/
def exceptionFiles (tables : ExceptionTables) :
    List ((Outputs → Path) × String) :=
  [(Outputs.intermediateExceptions, tables.intermediate),
    (Outputs.humanExceptions, tables.human)]

namespace Outputs

variable (outputs : Outputs)

def tableTexts (tables : Generated) : List (Path × String) :=
  (tableFiles tables).map fun file => (file.1 outputs, file.2.render)

def exceptionTexts (tables : ExceptionTables) : List (Path × String) :=
  (exceptionFiles tables).map fun file => (file.1 outputs, file.2)

end Outputs

def writeTexts : List (Path × String) → FileAction Error Unit
  | [] => return ()
  | (path, text) :: rest => do
      FileAction.mapError Error.unwritable
        (Cache.atomicWrite path (Text.encode text))
      writeTexts rest

/-- What tables are derived from. -/
structure Sources where
  base : Table
  fields : NameTable
  methods : NameTable

def Sources.load (tree : FileTree) (inputs : Inputs) :
    Except Error Sources := do
  let base ← Table.load tree inputs.base
  let fields ← NameTable.load tree inputs.fields
  let methods ← NameTable.load tree inputs.methods
  return ⟨base, fields, methods⟩

/-- Derive all tables and write them.  The exception tables are read only after
the other files have been written. -/
def generateFiles (inputs : Inputs) (outputs : Outputs) :
    FileAction Error Generated := do
  let sources ← FileAction.consult fun tree => Sources.load tree inputs
  let tables := generate sources.base sources.fields sources.methods
  writeTexts (outputs.tableTexts tables)
  let texts ← FileAction.consult fun tree =>
    inputs.exceptions.mapM (readText tree)
  writeTexts (outputs.exceptionTexts (mergeExceptions texts sources.methods))
  return tables

end Mapping

end Deobfuscate
