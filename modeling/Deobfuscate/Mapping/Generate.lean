import Deobfuscate.Mapping.Table
import Deobfuscate.NameTable

/-!
# The five derived tables

The base table pairs obfuscated names with intermediate ones.  Together with
the human names it determines the tables between any two of the three
namespaces that are of use.  Packages and classes have the same name for
humans as in the intermediate namespace; of fields and methods only the short
name changes.
-/

namespace Deobfuscate.Mapping

/-- The tables derived from a base table. -/
structure Generated where
  notchToIntermediate : Table
  notchToHuman : Table
  intermediateToHuman : Table
  humanToIntermediate : Table
  humanToNotch : Table
  deriving DecidableEq, Repr

def humanField (fields : NameTable) (name : String) : String :=
  match fields.name? (shortName name) with
  | some human => withShortName name human
  | none => name

def humanMethod (methods : NameTable) (method : Method) : Method :=
  match methods.name? (shortName method.name) with
  | some human => ⟨withShortName method.name human, method.descriptor⟩
  | none => method

def generate (base : Table) (fields methods : NameTable) : Generated :=
  let field := humanField fields
  let method := humanMethod methods
  { notchToIntermediate := base
    notchToHuman :=
      { packages := base.packages
        classes := base.classes
        fields := base.fields.map fun pair => (pair.1, field pair.2)
        methods := base.methods.map fun pair => (pair.1, method pair.2) }
    intermediateToHuman :=
      { classes := base.classes.map fun pair => (pair.2, pair.2)
        fields := base.fields.map fun pair => (pair.2, field pair.2)
        methods := base.methods.map fun pair => (pair.2, method pair.2) }
    humanToIntermediate :=
      { classes := base.classes.map fun pair => (pair.2, pair.2)
        fields := base.fields.map fun pair => (field pair.2, pair.2)
        methods := base.methods.map fun pair => (method pair.2, pair.2) }
    humanToNotch :=
      { packages := base.packages.map fun pair => (pair.2, pair.1)
        classes := base.classes.map fun pair => (pair.2, pair.1)
        fields := base.fields.map fun pair => (field pair.2, pair.1)
        methods := base.methods.map fun pair => (method pair.2, pair.1) } }

end Deobfuscate.Mapping
