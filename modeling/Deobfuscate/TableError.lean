import Deobfuscate.FileTree.Path
import Deobfuscate.Text.Quoted

/-!
# Faults in table files

Name tables, mapping tables and edit tables are read line by line.  A fault is
reported with the file and the line it was found on.
-/

namespace Deobfuscate

/-- What is wrong with a line of a table. -/
inductive TableFault
  /-- A quoted field is not closed before the end of the text. -/
  | unterminatedQuote
  /-- A name record without a second column. -/
  | missingNameColumn
  /-- A record with too few columns. -/
  | missingColumns (needed : Nat)
  /-- A mapping line without a colon. -/
  | missingKind
  /-- A mapping line with the wrong number of fields. -/
  | fieldCount (kind : String) (needed found : Nat)
  /-- A mapping line of a kind that does not exist. -/
  | unknownKind (kind : String)
  /-- A parameter index that is not a number. -/
  | parameterIndex (text : String)
  deriving DecidableEq, Repr

def TableFault.message : TableFault → String
  | .unterminatedQuote => "unterminated quoted field"
  | .missingNameColumn => "expected at least two columns"
  | .missingColumns needed => s!"expected at least {needed} columns"
  | .missingKind => "missing record kind"
  | .fieldCount kind needed found =>
      s!"{kind} record needs {needed} fields, found {found}"
  | .unknownKind kind => "unknown record kind " ++ Text.quote kind
  | .parameterIndex text => "invalid parameter index " ++ Text.quote text

/-- A fault with its place. -/
structure TableError where
  path : Path
  line : Nat
  fault : TableFault
  deriving DecidableEq, Repr

def TableError.message (error : TableError) : String :=
  s!"{error.path.text}:{error.line}: {error.fault.message}"

end Deobfuscate
