import Deobfuscate.Mapping.Table
import Deobfuscate.NameTable

/-!
# Symbols in three namespaces

A symbol set holds every symbol of a base table with its names in the three
namespaces, and answers look-ups by any of them.  Where several symbols share
a name in a namespace, the one declared first answers for it.
-/

namespace Deobfuscate.Mapping

/-- What a symbol names. -/
inductive SymbolKind
  | package
  | type
  | field
  | method
  | parameter
  deriving DecidableEq, Repr

/-- Where a name is used. -/
inductive Namespace
  | notch
  | intermediate
  | human
  deriving DecidableEq, Repr

/-- A symbol with its names.  Fields are named with their owner and methods
with owner and descriptor.  A parameter has no obfuscated name of its own. -/
structure Symbol where
  kind : SymbolKind
  obfuscated : String
  intermediate : Option String
  human : Option String
  documentation : Option String
  /-- The declaring class of a field or method, in intermediate names. -/
  owner : Option String
  deriving DecidableEq, Repr

def Symbol.nameIn (symbol : Symbol) : Namespace → Option String
  | .notch =>
      if symbol.kind = .parameter then none else some symbol.obfuscated
  | .intermediate => symbol.intermediate
  | .human => symbol.human

/-- Symbols in the order of their declaration. -/
structure SymbolSet where
  symbols : List Symbol
  deriving DecidableEq, Repr

/-- The symbol of a package or class. -/
def plainSymbol (kind : SymbolKind) (pair : String × String) : Symbol :=
  ⟨kind, pair.1, some pair.2, some pair.2, none, none⟩

def fieldSymbol (names : NameTable) (pair : String × String) : Symbol :=
  let entry := names.get? (shortName pair.2)
  { kind := .field
    obfuscated := pair.1
    intermediate := some pair.2
    human := some <|
      match entry with
      | some entry => withShortName pair.2 entry.name
      | none => pair.2
    documentation := entry.bind NameEntry.documentation
    owner := ownerOf pair.2 }

def methodSymbol (names : NameTable) (pair : Method × Method) : Symbol :=
  let entry := names.get? (shortName pair.2.name)
  let name :=
    match entry with
    | some entry => withShortName pair.2.name entry.name
    | none => pair.2.name
  { kind := .method
    obfuscated := pair.1.text
    intermediate := some pair.2.text
    human := some (name ++ " " ++ pair.2.descriptor)
    documentation := entry.bind NameEntry.documentation
    owner := ownerOf pair.2.name }

def parameterSymbol (binding : String × NameEntry) : Symbol :=
  { kind := .parameter
    obfuscated := binding.1
    intermediate := some binding.1
    human := some binding.2.name
    documentation := binding.2.documentation
    owner := none }

namespace SymbolSet

def build (base : Table) (fields methods parameters : NameTable) :
    SymbolSet :=
  ⟨base.packages.map (plainSymbol .package) ++
    base.classes.map (plainSymbol .type) ++
    base.fields.map (fieldSymbol fields) ++
    base.methods.map (methodSymbol methods) ++
    parameters.toList.map parameterSymbol⟩

def lookup (set : SymbolSet) (kind : SymbolKind) (space : Namespace)
    (name : String) : Option Symbol :=
  set.symbols.find? fun symbol =>
    symbol.kind = kind && symbol.nameIn space == some name

/-- Turn a name from one namespace to another.  A name without a symbol, and
the name of a symbol that has none there, stays as it is. -/
def translate (set : SymbolSet) (kind : SymbolKind)
    (source target : Namespace) (name : String) : String :=
  ((set.lookup kind source name).bind (·.nameIn target)).getD name

end SymbolSet

end Deobfuscate.Mapping
